import Authrs.Store.Tokens
import Mathlib.Data.List.Dedup

/-!
# Statements on roles, groups and permissions

The SQL statements of `RolesRepo`, `GroupsRepo` and `PermissionsRepo`. The junction tables
reference their endpoints with `ON DELETE CASCADE`, and a role its parent with
`ON DELETE SET NULL`; the deletes carry this out. The recursive queries follow the parents of a
set of roles inside one tenant: with `UNION` until nothing new is found, with `UNION ALL` along
the chain until it ends.

## Main definitions

* `Db.ancestors`: `WITH RECURSIVE … UNION` over the role hierarchy
* `Db.climb`, `Db.chain`: `WITH RECURSIVE … UNION ALL` from one role, looking for another or for
  all of them
* `RoleStmt`, `GroupStmt`, `PermissionStmt`: the statements
* `RoleStmt.exec`, `GroupStmt.exec`, `PermissionStmt.exec`: their results and effects

## Main results

* `insertRole_ok`, `insertUserRole_ok`, …: what a successful insert has checked and done
* `RoleStmt.exec_frame`, `GroupStmt.exec_frame`, `PermissionStmt.exec_frame`: what a statement
  leaves alone
-/

namespace Authrs

open Relational

/-! ### The role hierarchy -/

namespace Db

/-- A role of a tenant. -/
def roleIn (db : Db) (tenantId : String) (id : Uuid) : Option RoleRow :=
  db.roles.selectOne fun r => r.id = id && r.tenantId = tenantId

/-- A group of a tenant. -/
def groupIn (db : Db) (tenantId : String) (id : Uuid) : Option GroupRow :=
  db.groups.selectOne fun g => g.id = id && g.tenantId = tenantId

/-- A permission of a tenant. -/
def permissionIn (db : Db) (tenantId : String) (id : Uuid) : Option PermissionRow :=
  db.permissions.selectOne fun p => p.id = id && p.tenantId = tenantId

/-- A membership row of a tenant. -/
def userIn (db : Db) (tenantId : String) (id : Uuid) : Option MembershipRow :=
  db.users.selectOne fun u => u.id = id && u.tenantId = tenantId

/-- The recursive step of `role_ancestors`: the roles of the tenant that are parents. -/
def parentsOf (db : Db) (tenantId : String) (rs : List RoleRow) : List RoleRow :=
  db.roles.select fun r => r.tenantId = tenantId && rs.any fun a => a.parentRoleId = some r.id

/-- `role_ancestors` after `n` recursive steps. -/
def ancestorsAfter (db : Db) (tenantId : String) (rs : List RoleRow) : Nat → List RoleRow
  | 0 => rs.dedup
  | n + 1 =>
    let found := ancestorsAfter db tenantId rs n
    (found ++ db.parentsOf tenantId found).dedup

/-- `role_ancestors`: as many steps as there are roles find everything. -/
def ancestors (db : Db) (tenantId : String) (rs : List RoleRow) : List RoleRow :=
  db.ancestorsAfter tenantId rs db.roles.rows.length

/-- The roles assigned to a user, in the tenant. -/
def directRoles (db : Db) (tenantId : String) (userId : Uuid) : List RoleRow :=
  db.roles.select fun r =>
    r.tenantId = tenantId && db.userRoles.rows.any fun ur => ur.userId = userId && ur.roleId = r.id

/-- The roles assigned to the groups of a user, in the tenant. -/
def groupRolesOf (db : Db) (tenantId : String) (userId : Uuid) : List RoleRow :=
  db.roles.select fun r =>
    r.tenantId = tenantId && db.groupRoles.rows.any fun gr =>
      gr.roleId = r.id && db.userGroups.rows.any fun ug =>
        ug.userId = userId && ug.groupId = gr.groupId

/-- The names of the tenant's permissions attached to some of the roles. -/
def permissionNames (db : Db) (tenantId : String) (rs : List RoleRow) : List String :=
  ((db.permissions.select fun p =>
    p.tenantId = tenantId && db.rolePermissions.rows.any fun rp =>
      rp.permissionId = p.id && rs.any fun r => r.id = rp.roleId).map (·.name)).dedup

/-- The groups of a user, in the tenant. -/
def groupsOf (db : Db) (tenantId : String) (userId : Uuid) : List GroupRow :=
  db.groups.select fun g =>
    g.tenantId = tenantId && db.userGroups.rows.any fun ug => ug.userId = userId && ug.groupId = g.id

/-- The climb of `UNION ALL` from a role towards `target`: found, the end of the chain, or, after
more steps than there are roles, a chain that never ends. -/
def climb (db : Db) (tenantId : String) (target : Uuid) :
    Nat → Option RoleRow → Except SqlError (Option Uuid)
  | _, none => .ok none
  | 0, some _ => .error .queryCanceled
  | n + 1, some r =>
    if r.id = target then .ok (some target)
    else climb db tenantId target n (r.parentRoleId.bind (db.roleIn tenantId))

/-- The chain of `UNION ALL` from a role upwards, or, after more steps than there are roles, a chain
that never ends. -/
def chain (db : Db) (tenantId : String) : Nat → Option RoleRow → Except SqlError (List RoleRow)
  | _, none => .ok []
  | 0, some _ => .error .queryCanceled
  | n + 1, some r => do
    let above ← chain db tenantId n (r.parentRoleId.bind (db.roleIn tenantId))
    .ok (r :: above)

end Db

/-! ### Roles -/

/-- The statements on `roles` and `user_roles`. -/
inductive RoleStmt
  | getUserPermissions (tenantId : String) (userId : Uuid)
  | getUserRoles (tenantId : String) (userId : Uuid)
  | getUserRoleIds (tenantId : String) (userId : Uuid)
  | assignRoleToUser (tenantId : String) (userId roleId : Uuid)
  | removeRoleFromUser (userId roleId : Uuid)
  | getRoleIdByUid (tenantId uid : String)
  | insert (id : Uuid) (tenantId name uid : String) (parentRoleId : Option Uuid)
  | existsInTenant (roleId : Uuid) (tenantId : String)
  | setParent (parentRoleId : Option Uuid) (roleId : Uuid) (tenantId : String)
  | delete (tenantId : String) (roleId : Uuid)
  | cycleProbe (parentRoleId childRoleId : Uuid) (tenantId : String)
  | getRoleAncestors (tenantId : String) (roleId : Uuid)
  | resolveRoleUid (tenantId identifier : String)

/-- What the statement returns: rows, or the number of rows it touched. -/
@[reducible] def RoleStmt.Rows : RoleStmt → Type
  | .getUserPermissions .. => List String
  | .getUserRoles .. => List String
  | .getUserRoleIds .. => List Uuid
  | .getRoleIdByUid .. => Option Uuid
  | .existsInTenant .. => Option Uuid
  | .cycleProbe .. => Option Uuid
  | .getRoleAncestors .. => List (Uuid × String × String)
  | .resolveRoleUid .. => Option String
  | _ => Nat

/-- `ON DELETE SET NULL` of `parent_role_id`. -/
def RoleRow.orphaned (roleId : Uuid) (r : RoleRow) : RoleRow :=
  if r.parentRoleId = some roleId then { r with parentRoleId := none } else r

@[simp] theorem RoleRow.orphaned_id (roleId : Uuid) (r : RoleRow) :
    (r.orphaned roleId).id = r.id := by
  unfold orphaned
  split <;> rfl

@[simp] theorem RoleRow.orphaned_tenantId (roleId : Uuid) (r : RoleRow) :
    (r.orphaned roleId).tenantId = r.tenantId := by
  unfold orphaned
  split <;> rfl

/-- `SET parent_role_id = $1`. -/
def RoleRow.withParent (parentRoleId : Option Uuid) (r : RoleRow) : RoleRow :=
  { r with parentRoleId := parentRoleId }

@[simp] theorem RoleRow.withParent_id (parentRoleId : Option Uuid) (r : RoleRow) :
    (r.withParent parentRoleId).id = r.id := rfl

@[simp] theorem RoleRow.withParent_tenantId (parentRoleId : Option Uuid) (r : RoleRow) :
    (r.withParent parentRoleId).tenantId = r.tenantId := rfl

/-- Remove a role with what references it. -/
def Db.dropRole (db : Db) (roleId : Uuid) : Db :=
  { db with
    roles := (db.roles.delete fun r => r.id = roleId).update (fun _ => true)
      (RoleRow.orphaned roleId) (RoleRow.orphaned_id roleId)
    rolePermissions := db.rolePermissions.delete fun rp => rp.roleId = roleId
    userRoles := db.userRoles.delete fun ur => ur.roleId = roleId
    groupRoles := db.groupRoles.delete fun gr => gr.roleId = roleId }

/-- The tables after `UPDATE roles SET parent_role_id = $1 WHERE id = $2 AND tenant_id = $3`. -/
def Db.reparent (db : Db) (parentRoleId : Option Uuid) (roleId : Uuid) (tenantId : String) : Db :=
  { db with
    roles := db.roles.update (fun r => r.id = roleId && r.tenantId = tenantId)
      (.withParent parentRoleId) fun r => r.withParent_id _ }

/-- `INSERT INTO roles`. -/
def insertRole (db : Db) (id : Uuid) (tenantId name uid : String) (parentRoleId : Option Uuid) :
    Except SqlError (Nat × Db) := do
  let tenantId ← varcharReq 255 tenantId
  let name ← varcharReq 255 name
  let uid ← varcharReq 255 uid
  match db.roles.insert? ⟨id, tenantId, name, uid, parentRoleId⟩ with
  | none => .error (.uniqueViolation "roles_pkey")
  | some roles =>
    if db.roles.rows.any fun r => r.tenantId = tenantId && r.uid = uid then
      .error (.uniqueViolation "uq_roles_tenant_uid")
    else if !db.hasTenant tenantId then
      .error (.foreignKeyViolation "roles" "roles_tenant_id_fkey")
    else if parentRoleId.any fun p => (roles.selectOne fun r => r.id = p).isNone then
      .error (.foreignKeyViolation "roles" "roles_parent_role_id_fkey")
    else .ok (1, { db with roles := roles })

/-- `INSERT INTO user_roles … WHERE EXISTS`. -/
def insertUserRole (db : Db) (tenantId : String) (userId roleId : Uuid) :
    Except SqlError (Nat × Db) :=
  if (db.userIn tenantId userId).isSome ∧ (db.roleIn tenantId roleId).isSome then
    match db.userRoles.insert? ⟨userId, roleId⟩ with
    | none => .error (.uniqueViolation "user_roles_pkey")
    | some userRoles => .ok (1, { db with userRoles := userRoles })
  else .ok (0, db)

/-- A successful insert of a role: the row is the one asked for, and its parent exists. -/
theorem insertRole_ok {db db' : Db} {id : Uuid} {tenantId name uid : String}
    {parentRoleId : Option Uuid} {n : Nat}
    (h : insertRole db id tenantId name uid parentRoleId = .ok (n, db')) :
    ∃ row t, varcharReq 255 tenantId = .ok row.tenantId ∧ row.id = id ∧
      row.parentRoleId = parentRoleId ∧ db.roles.insert? row = some t ∧
      db.hasTenant row.tenantId = true ∧ (∀ p, parentRoleId = some p → ∃ q ∈ t, q.id = p) ∧
      db' = { db with roles := t } := by
  unfold insertRole at h
  simp only [bind_eq_ok] at h
  obtain ⟨tenantId', ht, _, -, _, -, h⟩ := h
  split at h
  · cases h
  · rename_i t hins
    split at h
    · cases h
    split at h
    · cases h
    · rename_i hten
      split at h
      · cases h
      · rename_i hparent
        cases h
        refine ⟨_, t, ht, rfl, rfl, hins, by simpa using hten, ?_, rfl⟩
        rintro p rfl
        -- the foreign key is checked against the table with the new row
        cases hsel : t.selectOne fun r => r.id = p with
        | none =>
          rw [Option.any_some, hsel] at hparent
          exact absurd rfl hparent
        | some q => exact ⟨q, Table.selectOne_key.mp hsel⟩

theorem insertUserRole_ok {db db' : Db} {tenantId : String} {userId roleId : Uuid} {n : Nat}
    (h : insertUserRole db tenantId userId roleId = .ok (n, db')) :
    db' = db ∨ ∃ t, (db.userIn tenantId userId).isSome ∧ (db.roleIn tenantId roleId).isSome ∧
      db.userRoles.insert? ⟨userId, roleId⟩ = some t ∧ db' = { db with userRoles := t } := by
  unfold insertUserRole at h
  split at h
  · rename_i hin
    split at h
    · cases h
    · rename_i t hins
      cases h
      exact .inr ⟨t, hin.1, hin.2, hins, rfl⟩
  · cases h
    exact .inl rfl

/-- A statement on roles: its result and the tables after it. -/
def RoleStmt.exec (db : Db) : (q : RoleStmt) → Except SqlError (q.Rows × Db)
  | .getUserPermissions tenantId userId =>
    .ok (db.permissionNames tenantId (db.ancestors tenantId (db.directRoles tenantId userId)), db)
  | .getUserRoles tenantId userId =>
    .ok (((db.ancestors tenantId (db.directRoles tenantId userId)).map (·.uid)).dedup.insertionSort
      (· ≤ ·), db)
  | .getUserRoleIds tenantId userId =>
    .ok (((db.ancestors tenantId (db.directRoles tenantId userId)).map (·.id)).dedup, db)
  | .assignRoleToUser tenantId userId roleId => insertUserRole db tenantId userId roleId
  | .removeRoleFromUser userId roleId =>
    let chosen : UserRoleRow → Bool := fun ur => ur.userId = userId && ur.roleId = roleId
    .ok (db.userRoles.affected chosen, { db with userRoles := db.userRoles.delete chosen })
  | .getRoleIdByUid tenantId uid =>
    .ok ((db.roles.selectOne fun r => r.tenantId = tenantId && r.uid = uid).map (·.id), db)
  | .insert id tenantId name uid parentRoleId => insertRole db id tenantId name uid parentRoleId
  | .existsInTenant roleId tenantId => .ok ((db.roleIn tenantId roleId).map (·.id), db)
  | .setParent parentRoleId roleId tenantId =>
    let chosen : RoleRow → Bool := fun r => r.id = roleId && r.tenantId = tenantId
    if (db.roles.rows.any chosen) &&
        parentRoleId.any fun p => (db.roles.selectOne fun r => r.id = p).isNone then
      .error (.foreignKeyViolation "roles" "roles_parent_role_id_fkey")
    else
      .ok (db.roles.affected chosen,
        { db with
          roles := db.roles.update chosen (.withParent parentRoleId) fun r => r.withParent_id _ })
  | .delete tenantId roleId =>
    match db.roleIn tenantId roleId with
    | none => .ok ((0 : Nat), db)
    | some _ => .ok ((1 : Nat), db.dropRole roleId)
  | .cycleProbe parentRoleId childRoleId tenantId => do
    let found ← db.climb tenantId childRoleId (db.roles.rows.length + 1)
      (db.roles.selectOne fun r => r.id = parentRoleId)
    .ok (found, db)
  | .getRoleAncestors tenantId roleId => do
    let parent := (db.roleIn tenantId roleId).bind fun r => r.parentRoleId.bind (db.roleIn tenantId)
    let ancestors ← db.chain tenantId (db.roles.rows.length + 1) parent
    -- `ORDER BY depth DESC`: root first
    .ok ((ancestors.map fun r => (r.id, r.name, r.uid)).reverse, db)
  | .resolveRoleUid tenantId identifier =>
    .ok ((db.roles.selectOne fun r =>
      r.tenantId = tenantId && (r.uid = identifier || r.name = identifier)).map (·.uid), db)

/-- A successful change of the parent: the new parent of a row that is changed exists. -/
theorem setParent_ok {db db' : Db} {parentRoleId : Option Uuid} {roleId : Uuid} {tenantId : String}
    {n : Nat} (h : (RoleStmt.setParent parentRoleId roleId tenantId).exec db = .ok (n, db')) :
    ((∃ r ∈ db.roles, r.id = roleId ∧ r.tenantId = tenantId) → ∀ p, parentRoleId = some p →
      ∃ q ∈ db.roles, q.id = p) ∧
    db' = db.reparent parentRoleId roleId tenantId := by
  simp only [RoleStmt.exec] at h
  split at h
  · cases h
  · rename_i hfk
    cases h
    refine ⟨?_, rfl⟩
    rintro ⟨r, hr, rfl, rfl⟩ p rfl
    have hany : db.roles.rows.any (fun x => x.id = r.id && x.tenantId = r.tenantId) = true :=
      List.any_eq_true.mpr ⟨r, hr, by simp⟩
    cases hsel : db.roles.selectOne fun x => x.id = p with
    | none =>
      rw [hany, Option.any_some, hsel] at hfk
      exact absurd rfl hfk
    | some q => exact ⟨q, Table.selectOne_key.mp hsel⟩

/-- **A statement on roles** changes at most the roles and what references them. -/
theorem RoleStmt.exec_frame {db db' : Db} {q : RoleStmt} {r : q.Rows}
    (h : q.exec db = .ok (r, db')) :
    db' = { db with
      roles := db'.roles
      rolePermissions := db'.rolePermissions
      userRoles := db'.userRoles
      groupRoles := db'.groupRoles } := by
  cases q with
  | insert =>
    obtain ⟨_, _, -, -, -, -, -, -, rfl⟩ := insertRole_ok h
    rfl
  | assignRoleToUser =>
    obtain rfl | ⟨_, -, -, -, rfl⟩ := insertUserRole_ok h <;> rfl
  | setParent =>
    obtain ⟨-, rfl⟩ := setParent_ok h
    rfl
  | delete =>
    simp only [exec] at h
    split at h <;> cases h <;> rfl
  | cycleProbe =>
    obtain ⟨_, -, h⟩ := bind_eq_ok.mp h
    cases h
    rfl
  | getRoleAncestors =>
    obtain ⟨_, -, h⟩ := bind_eq_ok.mp h
    cases h
    rfl
  | _ =>
    cases h
    rfl

/-! ### Groups -/

/-- The statements on `groups`, `user_groups` and `group_roles`. -/
inductive GroupStmt
  | getUserGroupUids (tenantId : String) (userId : Uuid)
  | getUserGroupIds (tenantId : String) (userId : Uuid)
  | getUserGroupRoleUids (tenantId : String) (userId : Uuid)
  | getUserGroupRoleIds (tenantId : String) (userId : Uuid)
  | getUserGroupPermissions (tenantId : String) (userId : Uuid)
  | getIdByUid (tenantId uid : String)
  | insert (id : Uuid) (tenantId name uid : String) (description : Option String)
  | getIdByNameExcept (tenantId name : String) (groupId : Uuid)
  | update (tenantId : String) (groupId : Uuid) (name : Option String)
      (description : Option (Option String))
  | delete (tenantId : String) (groupId : Uuid)
  | addUser (tenantId : String) (userId groupId : Uuid)
  | existsInTenant (groupId : Uuid) (tenantId : String)
  | removeUser (userId groupId : Uuid)
  | assignRole (tenantId : String) (groupId roleId : Uuid)
  | removeRole (groupId roleId : Uuid)

/-- What the statement returns: rows, or the number of rows it touched. -/
@[reducible] def GroupStmt.Rows : GroupStmt → Type
  | .getUserGroupUids .. => List String
  | .getUserGroupIds .. => List Uuid
  | .getUserGroupRoleUids .. => List String
  | .getUserGroupRoleIds .. => List Uuid
  | .getUserGroupPermissions .. => List String
  | .getIdByUid .. => Option Uuid
  | .getIdByNameExcept .. => Option Uuid
  | .update .. => Option (String × String × Option String)
  | .existsInTenant .. => Option Uuid
  | _ => Nat

/-- `SET name = COALESCE($3, name), description = CASE WHEN $4 THEN $5 ELSE description END`. -/
def GroupRow.withDetails (name : Option String) (description : Option (Option String))
    (g : GroupRow) : GroupRow :=
  { g with name := name.getD g.name, description := description.getD g.description }

@[simp] theorem GroupRow.withDetails_id (name : Option String)
    (description : Option (Option String)) (g : GroupRow) :
    (g.withDetails name description).id = g.id := rfl

@[simp] theorem GroupRow.withDetails_tenantId (name : Option String)
    (description : Option (Option String)) (g : GroupRow) :
    (g.withDetails name description).tenantId = g.tenantId := rfl

/-- `INSERT INTO groups`. -/
def insertGroup (env : SqlEnv) (db : Db) (id : Uuid) (tenantId name uid : String)
    (description : Option String) : Except SqlError (Nat × Db) := do
  let tenantId ← varcharReq 255 tenantId
  let name ← varcharReq 255 name
  let uid ← varcharReq 255 uid
  match db.groups.insert? ⟨id, tenantId, name, uid, description, env.now⟩ with
  | none => .error (.uniqueViolation "groups_pkey")
  | some groups =>
    if db.groups.rows.any fun g => g.tenantId = tenantId && g.name = name then
      .error (.uniqueViolation "groups_tenant_id_name_key")
    else if db.groups.rows.any fun g => g.tenantId = tenantId && g.uid = uid then
      .error (.uniqueViolation "groups_tenant_id_uid_key")
    else if !db.hasTenant tenantId then
      .error (.foreignKeyViolation "groups" "groups_tenant_id_fkey")
    else .ok (1, { db with groups := groups })

theorem insertGroup_ok {env : SqlEnv} {db db' : Db} {id : Uuid} {tenantId name uid : String}
    {description : Option String} {n : Nat}
    (h : insertGroup env db id tenantId name uid description = .ok (n, db')) :
    ∃ row t, varcharReq 255 tenantId = .ok row.tenantId ∧ row.id = id ∧
      db.groups.insert? row = some t ∧ db.hasTenant row.tenantId = true ∧
      db' = { db with groups := t } := by
  unfold insertGroup at h
  simp only [bind_eq_ok] at h
  obtain ⟨tenantId', ht, _, -, _, -, h⟩ := h
  split at h
  · cases h
  · rename_i t hins
    split at h
    · cases h
    · split at h
      · cases h
      · split at h <;> cases h
        rename_i hten
        exact ⟨_, t, ht, rfl, hins, by simpa using hten, rfl⟩

/-- `UPDATE groups … RETURNING name, uid, description`. -/
def updateGroup (db : Db) (tenantId : String) (groupId : Uuid) (name : Option String)
    (description : Option (Option String)) :
    Except SqlError (Option (String × String × Option String) × Db) := do
  let chosen : GroupRow → Bool := fun g => g.tenantId = tenantId && g.id = groupId
  let name ← varcharOpt 255 name
  match db.groups.selectOne chosen with
  | none => .ok (none, db)
  | some g =>
    let g' := g.withDetails name description
    if db.groups.rows.any fun x => x.tenantId = tenantId && x.name = g'.name && x.id ≠ groupId then
      .error (.uniqueViolation "groups_tenant_id_name_key")
    else
      .ok (some (g'.name, g'.uid, g'.description),
        { db with
          groups := db.groups.update chosen (.withDetails name description) fun g =>
            g.withDetails_id _ _ })

theorem updateGroup_ok {db db' : Db} {tenantId : String} {groupId : Uuid} {name : Option String}
    {description : Option (Option String)} {r : Option (String × String × Option String)}
    (h : updateGroup db tenantId groupId name description = .ok (r, db')) :
    db' = db ∨ ∃ name', db' = { db with
      groups := db.groups.update (fun g => g.tenantId = tenantId && g.id = groupId)
        (.withDetails name' description) fun g => g.withDetails_id _ _ } := by
  unfold updateGroup at h
  simp only [bind_eq_ok] at h
  obtain ⟨name', -, h⟩ := h
  split at h
  · cases h
    exact .inl rfl
  · split at h <;> cases h
    exact .inr ⟨name', rfl⟩

/-- Remove a group with what references it. -/
def Db.dropGroup (db : Db) (groupId : Uuid) : Db :=
  { db with
    groups := db.groups.delete fun g => g.id = groupId
    userGroups := db.userGroups.delete fun ug => ug.groupId = groupId
    groupRoles := db.groupRoles.delete fun gr => gr.groupId = groupId }

/-- `INSERT INTO user_groups … WHERE EXISTS … ON CONFLICT DO NOTHING`. -/
def insertUserGroup (env : SqlEnv) (db : Db) (tenantId : String) (userId groupId : Uuid) :
    Nat × Db :=
  if (db.userIn tenantId userId).isSome ∧ (db.groupIn tenantId groupId).isSome then
    match db.userGroups.insert? ⟨userId, groupId, env.now⟩ with
    | none => (0, db)
    | some userGroups => (1, { db with userGroups := userGroups })
  else (0, db)

/-- `INSERT INTO group_roles … WHERE EXISTS … ON CONFLICT DO NOTHING`. -/
def insertGroupRole (db : Db) (tenantId : String) (groupId roleId : Uuid) : Nat × Db :=
  if (db.groupIn tenantId groupId).isSome ∧ (db.roleIn tenantId roleId).isSome then
    match db.groupRoles.insert? ⟨groupId, roleId⟩ with
    | none => (0, db)
    | some groupRoles => (1, { db with groupRoles := groupRoles })
  else (0, db)

theorem insertUserGroup_cases (env : SqlEnv) (db : Db) (tenantId : String)
    (userId groupId : Uuid) :
    (insertUserGroup env db tenantId userId groupId).2 = db ∨
    ∃ t, (db.userIn tenantId userId).isSome ∧ (db.groupIn tenantId groupId).isSome ∧
      db.userGroups.insert? ⟨userId, groupId, env.now⟩ = some t ∧
      (insertUserGroup env db tenantId userId groupId).2 = { db with userGroups := t } := by
  unfold insertUserGroup
  split
  · rename_i hin
    split
    · exact .inl rfl
    · rename_i t hins
      exact .inr ⟨t, hin.1, hin.2, hins, rfl⟩
  · exact .inl rfl

theorem insertGroupRole_cases (db : Db) (tenantId : String) (groupId roleId : Uuid) :
    (insertGroupRole db tenantId groupId roleId).2 = db ∨
    ∃ t, (db.groupIn tenantId groupId).isSome ∧ (db.roleIn tenantId roleId).isSome ∧
      db.groupRoles.insert? ⟨groupId, roleId⟩ = some t ∧
      (insertGroupRole db tenantId groupId roleId).2 = { db with groupRoles := t } := by
  unfold insertGroupRole
  split
  · rename_i hin
    split
    · exact .inl rfl
    · rename_i t hins
      exact .inr ⟨t, hin.1, hin.2, hins, rfl⟩
  · exact .inl rfl

/-- A statement on groups: its result and the tables after it. -/
def GroupStmt.exec (env : SqlEnv) (db : Db) : (q : GroupStmt) → Except SqlError (q.Rows × Db)
  | .getUserGroupUids tenantId userId =>
    .ok (((db.groupsOf tenantId userId).map (·.uid)).insertionSort (· ≤ ·), db)
  | .getUserGroupIds tenantId userId => .ok ((db.groupsOf tenantId userId).map (·.id), db)
  | .getUserGroupRoleUids tenantId userId =>
    .ok (((db.ancestors tenantId (db.groupRolesOf tenantId userId)).map (·.uid)).dedup.insertionSort
      (· ≤ ·), db)
  | .getUserGroupRoleIds tenantId userId =>
    .ok (((db.ancestors tenantId (db.groupRolesOf tenantId userId)).map (·.id)).dedup, db)
  | .getUserGroupPermissions tenantId userId =>
    .ok (db.permissionNames tenantId (db.ancestors tenantId (db.groupRolesOf tenantId userId)), db)
  | .getIdByUid tenantId uid =>
    .ok ((db.groups.selectOne fun g => g.tenantId = tenantId && g.uid = uid).map (·.id), db)
  | .insert id tenantId name uid description => insertGroup env db id tenantId name uid description
  | .getIdByNameExcept tenantId name groupId =>
    .ok ((db.groups.selectOne fun g =>
      g.tenantId = tenantId && g.name = name && g.id ≠ groupId).map (·.id), db)
  | .update tenantId groupId name description => updateGroup db tenantId groupId name description
  | .delete tenantId groupId =>
    match db.groupIn tenantId groupId with
    | none => .ok ((0 : Nat), db)
    | some _ => .ok ((1 : Nat), db.dropGroup groupId)
  | .addUser tenantId userId groupId => .ok (insertUserGroup env db tenantId userId groupId)
  | .existsInTenant groupId tenantId => .ok ((db.groupIn tenantId groupId).map (·.id), db)
  | .removeUser userId groupId =>
    let chosen : UserGroupRow → Bool := fun ug => ug.userId = userId && ug.groupId = groupId
    .ok (db.userGroups.affected chosen, { db with userGroups := db.userGroups.delete chosen })
  | .assignRole tenantId groupId roleId => .ok (insertGroupRole db tenantId groupId roleId)
  | .removeRole groupId roleId =>
    let chosen : GroupRoleRow → Bool := fun gr => gr.groupId = groupId && gr.roleId = roleId
    .ok (db.groupRoles.affected chosen, { db with groupRoles := db.groupRoles.delete chosen })

/-- **A statement on groups** changes at most the groups and what references them. -/
theorem GroupStmt.exec_frame {env : SqlEnv} {db db' : Db} {q : GroupStmt} {r : q.Rows}
    (h : q.exec env db = .ok (r, db')) :
    db' = { db with
      groups := db'.groups
      userGroups := db'.userGroups
      groupRoles := db'.groupRoles } := by
  cases q with
  | insert =>
    obtain ⟨_, _, -, -, -, -, rfl⟩ := insertGroup_ok h
    rfl
  | update =>
    obtain rfl | ⟨_, rfl⟩ := updateGroup_ok h <;> rfl
  | delete =>
    simp only [exec] at h
    split at h <;> cases h <;> rfl
  | addUser tenantId userId groupId =>
    have hdb : db' = (insertUserGroup env db tenantId userId groupId).2 :=
      (congrArg Prod.snd (Except.ok.inj h)).symm
    obtain h | ⟨_, -, -, -, h⟩ := insertUserGroup_cases env db tenantId userId groupId <;>
      rw [hdb, h]
  | assignRole tenantId groupId roleId =>
    have hdb : db' = (insertGroupRole db tenantId groupId roleId).2 :=
      (congrArg Prod.snd (Except.ok.inj h)).symm
    obtain h | ⟨_, -, -, -, h⟩ := insertGroupRole_cases db tenantId groupId roleId <;>
      rw [hdb, h]
  | _ =>
    cases h
    rfl

/-! ### Permissions -/

/-- The statements on `permissions` and `role_permissions`. -/
inductive PermissionStmt
  | insert (id : Uuid) (tenantId name : String) (description : Option String) (document : Json)
  | upsert (id : Uuid) (tenantId name : String) (description : Option String) (document : Json)
  | delete (permissionId : Uuid) (tenantId : String)
  | roleExists (roleId : Uuid) (tenantId : String)
  | permissionExists (permissionId : Uuid) (tenantId : String)
  | attach (roleId permissionId : Uuid)
  | detach (roleId permissionId : Uuid)
  | getForRoles (tenantId : String) (roleIds : List Uuid)

/-- What the statement returns: rows, or the number of rows it touched. -/
@[reducible] def PermissionStmt.Rows : PermissionStmt → Type
  | .upsert .. => Uuid
  | .roleExists .. => Bool
  | .permissionExists .. => Bool
  | .getForRoles .. => List (Uuid × Json)
  | _ => Nat

/-- The documents of the tenant's permissions attached to some of the roles. -/
def Db.documentsFor (db : Db) (tenantId : String) (roleIds : List Uuid) : List (Uuid × Json) :=
  (db.permissions.select fun p =>
    p.tenantId = tenantId && db.rolePermissions.rows.any fun rp =>
      rp.permissionId = p.id && decide (rp.roleId ∈ roleIds)).filterMap fun p =>
        p.document.map fun document => (p.id, document)

/-- `INSERT INTO permissions`. -/
def insertPermission (db : Db) (id : Uuid) (tenantId name : String)
    (description : Option String) (document : Json) : Except SqlError (Nat × Db) := do
  let tenantId ← varcharReq 255 tenantId
  let name ← varcharReq 255 name
  match db.permissions.insert? ⟨id, tenantId, name, description, some document⟩ with
  | none => .error (.uniqueViolation "permissions_pkey")
  | some permissions =>
    if db.permissions.rows.any fun p => p.tenantId = tenantId && p.name = name then
      .error (.uniqueViolation "uq_permissions_tenant_name")
    else if !db.hasTenant tenantId then
      .error (.foreignKeyViolation "permissions" "permissions_tenant_id_fkey")
    else .ok (1, { db with permissions := permissions })

theorem insertPermission_ok {db db' : Db} {id : Uuid} {tenantId name : String}
    {description : Option String} {document : Json} {n : Nat}
    (h : insertPermission db id tenantId name description document = .ok (n, db')) :
    ∃ row t, varcharReq 255 tenantId = .ok row.tenantId ∧ row.id = id ∧
      db.permissions.insert? row = some t ∧ db.hasTenant row.tenantId = true ∧
      db' = { db with permissions := t } := by
  unfold insertPermission at h
  simp only [bind_eq_ok] at h
  obtain ⟨tenantId', ht, _, -, h⟩ := h
  split at h
  · cases h
  · rename_i t hins
    split at h
    · cases h
    · split at h <;> cases h
      rename_i hten
      exact ⟨_, t, ht, rfl, hins, by simpa using hten, rfl⟩

/-- `DO UPDATE SET description = EXCLUDED.description, document = EXCLUDED.document`. -/
def PermissionRow.withDocument (description : Option String) (document : Json)
    (p : PermissionRow) : PermissionRow :=
  { p with description := description, document := some document }

@[simp] theorem PermissionRow.withDocument_id (description : Option String) (document : Json)
    (p : PermissionRow) : (p.withDocument description document).id = p.id := rfl

@[simp] theorem PermissionRow.withDocument_tenantId (description : Option String)
    (document : Json) (p : PermissionRow) :
    (p.withDocument description document).tenantId = p.tenantId := rfl

/-- `INSERT INTO permissions … ON CONFLICT (tenant_id, name) DO UPDATE … RETURNING id`. -/
def upsertPermission (db : Db) (id : Uuid) (tenantId name : String)
    (description : Option String) (document : Json) : Except SqlError (Uuid × Db) := do
  let tenantId ← varcharReq 255 tenantId
  let name ← varcharReq 255 name
  match db.permissions.selectOne fun p => p.tenantId = tenantId && p.name = name with
  | some p =>
    .ok (p.id, { db with
      permissions :=
        db.permissions.update (fun x => x.id = p.id) (.withDocument description document)
          fun x => x.withDocument_id _ _ })
  | none =>
    let (_, db') ← insertPermission db id tenantId name description document
    .ok (id, db')

theorem upsertPermission_ok {db db' : Db} {id : Uuid} {tenantId name : String}
    {description : Option String} {document : Json} {r : Uuid}
    (h : upsertPermission db id tenantId name description document = .ok (r, db')) :
    (∃ p ∈ db.permissions, varcharReq 255 tenantId = .ok p.tenantId ∧ db' = { db with
      permissions := db.permissions.update (fun x => x.id = p.id)
        (.withDocument description document) fun x => x.withDocument_id _ _ }) ∨
    ∃ tenantId' name' n, varcharReq 255 tenantId = .ok tenantId' ∧
      insertPermission db id tenantId' name' description document = .ok (n, db') := by
  unfold upsertPermission at h
  simp only [bind_eq_ok] at h
  obtain ⟨tenantId', ht, name', -, h⟩ := h
  split at h
  · rename_i p hp
    cases h
    have hpos := Table.selectOne_pos hp
    simp only [Bool.and_eq_true, decide_eq_true_eq] at hpos
    exact .inl ⟨p, Table.selectOne_mem hp, by rw [hpos.1]; exact ht, rfl⟩
  · obtain ⟨⟨n, db''⟩, hins, h⟩ := bind_eq_ok.mp h
    cases h
    exact .inr ⟨tenantId', name', n, ht, hins⟩

/-- Remove a permission with what references it. -/
def Db.dropPermission (db : Db) (permissionId : Uuid) : Db :=
  { db with
    permissions := db.permissions.delete fun p => p.id = permissionId
    rolePermissions := db.rolePermissions.delete fun rp => rp.permissionId = permissionId }

/-- `INSERT INTO role_permissions … ON CONFLICT DO NOTHING`. -/
def insertRolePermission (db : Db) (roleId permissionId : Uuid) : Except SqlError (Nat × Db) :=
  match db.rolePermissions.insert? ⟨roleId, permissionId⟩ with
  | none => .ok (0, db)
  | some rolePermissions =>
    if (db.roles.selectOne fun r => r.id = roleId).isNone then
      .error (.foreignKeyViolation "role_permissions" "role_permissions_role_id_fkey")
    else if (db.permissions.selectOne fun p => p.id = permissionId).isNone then
      .error (.foreignKeyViolation "role_permissions" "role_permissions_permission_id_fkey")
    else .ok (1, { db with rolePermissions := rolePermissions })

/-- A new attachment refers to an existing role and an existing permission. -/
theorem insertRolePermission_ok {db db' : Db} {roleId permissionId : Uuid} {n : Nat}
    (h : insertRolePermission db roleId permissionId = .ok (n, db')) :
    db' = db ∨ ∃ t, db.rolePermissions.insert? ⟨roleId, permissionId⟩ = some t ∧
      (∃ r ∈ db.roles, r.id = roleId) ∧ (∃ p ∈ db.permissions, p.id = permissionId) ∧
      db' = { db with rolePermissions := t } := by
  unfold insertRolePermission at h
  split at h
  · cases h
    exact .inl rfl
  · rename_i t hins
    split at h
    · cases h
    · rename_i hrole
      split at h
      · cases h
      · rename_i hpermission
        cases h
        rw [Option.isNone_iff_eq_none] at hrole hpermission
        obtain ⟨r, hr⟩ := Option.ne_none_iff_exists'.mp hrole
        obtain ⟨p, hp⟩ := Option.ne_none_iff_exists'.mp hpermission
        exact .inr ⟨t, hins, ⟨r, Table.selectOne_key.mp hr⟩, ⟨p, Table.selectOne_key.mp hp⟩, rfl⟩

/-- A statement on permissions: its result and the tables after it. -/
def PermissionStmt.exec (db : Db) : (q : PermissionStmt) → Except SqlError (q.Rows × Db)
  | .insert id tenantId name description document =>
    insertPermission db id tenantId name description document
  | .upsert id tenantId name description document =>
    upsertPermission db id tenantId name description document
  | .delete permissionId tenantId =>
    match db.permissionIn tenantId permissionId with
    | none => .ok ((0 : Nat), db)
    | some _ => .ok ((1 : Nat), db.dropPermission permissionId)
  | .roleExists roleId tenantId => .ok ((db.roleIn tenantId roleId).isSome, db)
  | .permissionExists permissionId tenantId =>
    .ok ((db.permissionIn tenantId permissionId).isSome, db)
  | .attach roleId permissionId => insertRolePermission db roleId permissionId
  | .detach roleId permissionId =>
    let chosen : RolePermissionRow → Bool := fun rp =>
      rp.roleId = roleId && rp.permissionId = permissionId
    .ok (db.rolePermissions.affected chosen,
      { db with rolePermissions := db.rolePermissions.delete chosen })
  | .getForRoles tenantId roleIds => .ok (db.documentsFor tenantId roleIds, db)

/-- **A statement on permissions** changes at most the permissions and their attachments. -/
theorem PermissionStmt.exec_frame {db db' : Db} {q : PermissionStmt} {r : q.Rows}
    (h : q.exec db = .ok (r, db')) :
    db' = { db with
      permissions := db'.permissions
      rolePermissions := db'.rolePermissions } := by
  cases q with
  | insert =>
    obtain ⟨_, _, -, -, -, -, rfl⟩ := insertPermission_ok h
    rfl
  | upsert =>
    obtain ⟨_, -, -, rfl⟩ | ⟨_, _, _, -, hins⟩ := upsertPermission_ok h
    · rfl
    · obtain ⟨_, _, -, -, -, -, rfl⟩ := insertPermission_ok hins
      rfl
  | delete =>
    simp only [exec] at h
    split at h <;> cases h <;> rfl
  | attach =>
    obtain rfl | ⟨_, -, -, -, rfl⟩ := insertRolePermission_ok h <;> rfl
  | _ =>
    cases h
    rfl

end Authrs
