import Authrs.Login.Grants

/-!
# The session of a user carries the effective roles

When no lookup fails, the session of a user carries the roles of the tenant that are reachable, along
parents in the tenant, from the roles assigned to the user or to the user's groups, by id and by uid,
and the names of the tenant's permissions that are attached to them. What crosses tenants is left out:
a parent in another tenant with what is above it, and another tenant's permission.

## Main definitions

* `Carries`: a session carries some roles and their permissions
* `SessionCarries`: the session of a call does
* `References`: the foreign keys of the tables

## Main results

* `session_carries`: the session of a call carries the effective roles of its user
* `crossTenant_left_out`: a parent and a permission of another tenant
-/

namespace Authrs

open Interaction Relational

section Carries

variable (w : World) (s : State) (tenantId : String) (user : User) (ip userAgent : Option String)

/-- **A session carries** the roles `R`, by id and by uid, and the permissions `G` of these roles. -/
structure Carries (db : Db) (tenantId : String) (R : RoleRow → Prop)
    (G : RoleRow → PermissionRow → Prop) (p : SessionPayload) : Prop where
  roleIds : p.roleIds.Nodup ∧ ∀ id, id ∈ p.roleIds ↔ ∃ r, R r ∧ r.id = id
  roles : p.roles.Nodup ∧ ∀ uid, uid ∈ p.roles ↔ ∃ r, R r ∧ r.uid = uid
  permissions : p.permissions.Nodup ∧
    ∀ name, name ∈ p.permissions ↔ ∃ r x, R r ∧ G r x ∧ x.name = name
  /-- Where uids are unique, ids and uids describe the same roles. -/
  same : (∀ a ∈ db.roles, ∀ b ∈ db.roles, a.tenantId = tenantId → b.tenantId = tenantId →
      a.uid = b.uid → a = b) →
    ∀ r ∈ db.roles, r.tenantId = tenantId → (r.uid ∈ p.roles ↔ r.id ∈ p.roleIds)

/-- **The session of a call carries** the roles `R` and their permissions `G`; a call that returns
has stored one. -/
def SessionCarries (R : RoleRow → Prop) (G : RoleRow → PermissionRow → Prop) : Prop :=
  (∀ p, Mints (handle w) s (AuthService.doCreateSession w tenantId user ip userAgent) p →
    Carries s.db tenantId R G p) ∧
  ∀ result s', (AuthService.doCreateSession w tenantId user ip userAgent).exec (handle w) s =
    (.ok result, s') →
      ∃ p, Mints (handle w) s (AuthService.doCreateSession w tenantId user ip userAgent) p

variable {s tenantId} {userId : Uuid}

/-- What the effective roles of a user have in common with the two lists of roles. -/
theorem exists_effectiveRole {α : Type} (f : RoleRow → α) (x : α) :
    (∃ r, s.db.EffectiveRole tenantId userId r ∧ f r = x) ↔
      x ∈ (s.db.ancestors tenantId (s.db.directRoles tenantId userId)).map f ∨
        x ∈ (s.db.ancestors tenantId (s.db.groupRolesOf tenantId userId)).map f := by
  simp only [List.mem_map, Db.effectiveRole_iff]
  constructor
  · rintro ⟨r, hr | hr, rfl⟩
    · exact .inl ⟨r, hr, rfl⟩
    · exact .inr ⟨r, hr, rfl⟩
  · rintro (⟨r, hr, rfl⟩ | ⟨r, hr, rfl⟩)
    · exact ⟨r, .inl hr, rfl⟩
    · exact ⟨r, .inr hr, rfl⟩

/-- **What the lookups find** for a user, when none fails. -/
theorem carries_of_grants {p : SessionPayload}
    (hp : p.grants = AuthService.grantsFound (fun _ => false) s.db tenantId userId) :
    Carries s.db tenantId (s.db.EffectiveRole tenantId userId) (s.db.AttachedIn tenantId) p := by
  have hroles : p.roles = _ := congrArg AuthService.Grants.roles hp
  have hids : p.roleIds = _ := congrArg AuthService.Grants.roleIds hp
  have hpermissions : p.permissions = _ := congrArg AuthService.Grants.permissions hp
  -- The direct roles and those of the groups are appended without duplicates.
  have huid : ∀ uid, uid ∈ p.roles ↔ ∃ r, s.db.EffectiveRole tenantId userId r ∧ r.uid = uid := by
    intro uid
    rw [hroles, exists_effectiveRole]
    unfold AuthService.grantsFound AuthService.foundBy
    simp only [Bool.false_eq_true, if_false]
    rw [mem_dedupChain, List.mem_insertionSort, List.mem_insertionSort, List.mem_dedup,
      List.mem_dedup]
  have hid : ∀ id, id ∈ p.roleIds ↔ ∃ r, s.db.EffectiveRole tenantId userId r ∧ r.id = id := by
    intro id
    rw [hids, exists_effectiveRole]
    unfold AuthService.grantsFound AuthService.foundBy
    simp only [Bool.false_eq_true, if_false]
    rw [mem_dedupChain, List.mem_dedup, List.mem_dedup]
  refine ⟨⟨?_, hid⟩, ⟨?_, huid⟩, ⟨?_, ?_⟩, ?_⟩
  · rw [hids]
    exact nodup_dedupChain _ _
  · rw [hroles]
    exact nodup_dedupChain _ _
  · rw [hpermissions]
    exact nodup_dedupChain _ _
  · intro name
    rw [hpermissions]
    unfold AuthService.grantsFound AuthService.foundBy
    simp only [Bool.false_eq_true, if_false]
    rw [mem_dedupChain, Db.mem_permissionNames, Db.mem_permissionNames]
    simp only [Db.effectiveRole_iff]
    constructor
    · rintro (⟨x, ⟨r, hr, hx⟩, rfl⟩ | ⟨x, ⟨r, hr, hx⟩, rfl⟩)
      · exact ⟨r, x, .inl hr, hx, rfl⟩
      · exact ⟨r, x, .inr hr, hx, rfl⟩
    · rintro ⟨r, x, hr | hr, hx, rfl⟩
      · exact .inl ⟨x, ⟨r, hr, hx⟩, rfl⟩
      · exact .inr ⟨x, ⟨r, hr, hx⟩, rfl⟩
  · intro hunique r hr htenant
    rw [huid, hid]
    constructor
    · rintro ⟨a, ha, heq⟩
      obtain ⟨hmem, hin⟩ := ha.mem
      exact ⟨a, ha, congrArg RoleRow.id (hunique a hmem r hr hin htenant heq)⟩
    · rintro ⟨a, ha, heq⟩
      obtain ⟨hmem, -⟩ := ha.mem
      exact ⟨a, ha, congrArg RoleRow.uid (Table.eq_of_key_eq hmem hr heq)⟩

variable (s tenantId)

/-- **A session carries the effective roles of its user** and their permissions: those that are
reachable within the tenant. -/
theorem session_carries :
    SessionCarries w s tenantId user ip userAgent (s.db.EffectiveRole tenantId user.id)
      (s.db.AttachedIn tenantId) := by
  constructor
  · intro p hp
    rw [← faulty_none w .rowNotFound] at hp
    exact carries_of_grants (AuthService.grants_of_mints hp)
  · intro result s' h
    rw [← faulty_none w .rowNotFound] at h ⊢
    exact AuthService.exists_mints.mpr (AuthService.storable_of_exec h)

end Carries

/-! ### Links that cross tenants -/

/-- **The foreign keys** between roles, groups, permissions and their junction tables hold. -/
structure Db.References (db : Db) : Prop where
  parents : ∀ r ∈ db.roles, ∀ p ∈ r.parentRoleId, ∃ r' ∈ db.roles, r'.id = p
  userRoles : ∀ ur ∈ db.userRoles, (∃ u ∈ db.users, u.id = ur.userId) ∧ ∃ r ∈ db.roles, r.id = ur.roleId
  userGroups : ∀ ug ∈ db.userGroups,
    (∃ u ∈ db.users, u.id = ug.userId) ∧ ∃ g ∈ db.groups, g.id = ug.groupId
  groupRoles : ∀ gr ∈ db.groupRoles,
    (∃ g ∈ db.groups, g.id = gr.groupId) ∧ ∃ r ∈ db.roles, r.id = gr.roleId
  rolePermissions : ∀ rp ∈ db.rolePermissions,
    (∃ r ∈ db.roles, r.id = rp.roleId) ∧ ∃ p ∈ db.permissions, p.id = rp.permissionId

/-- A role of the tenant that is reachable along parents in any tenant. -/
def Db.ReachableRole (db : Db) (tenantId : String) (userId : Uuid) (r : RoleRow) : Prop :=
  r ∈ db.roles ∧ r.tenantId = tenantId ∧
    ∃ a, (db.Assigned tenantId userId a ∨ db.AssignedToGroup tenantId userId a) ∧
      Relation.ReflTransGen (fun a b => b ∈ db.roles ∧ a.parentRoleId = some b.id) a r

/-- A permission of any tenant is attached to the role. -/
def Db.Attached (db : Db) (r : RoleRow) (p : PermissionRow) : Prop :=
  p ∈ db.permissions ∧ ∃ rp ∈ db.rolePermissions, rp.roleId = r.id ∧ rp.permissionId = p.id

/-- A role of acme whose parent is a role of globex below a role of acme, with a permission of
globex. -/
def crossTenant : State :=
  .ofDb { Db.empty with
    tenants := acmeAndGlobex
    identities := .single (IdentityRow.ofHandles ⟨0, id, fun _ => 7⟩ (some "ann@acme.example") none
      none none none none)
    users := .single ⟨1, "acme", 7, none, "active", none, 0, 0⟩
    roles := ⟨[⟨1, "acme", "Clerk", "clerk", some 2⟩, ⟨2, "globex", "Lead", "lead", some 3⟩,
      ⟨3, "acme", "Head", "head", none⟩], by decide⟩
    permissions := .single ⟨4, "globex", "audit", none, none⟩
    userRoles := .single ⟨1, 1⟩
    rolePermissions := .single ⟨1, 4⟩ } 0

/-- The membership of acme. -/
def clerk : User :=
  .ofRows ⟨1, "acme", 7, none, "active", none, 0, 0⟩ (IdentityRow.ofHandles ⟨0, id, fun _ => 7⟩
    (some "ann@acme.example") none none none none none).toIdentity

theorem crossTenant_references : crossTenant.db.References where
  parents := by
    intro r hr p hp
    simp only [crossTenant, State.ofDb_db, Table.mem_mk, List.mem_cons, List.not_mem_nil,
      or_false] at hr
    rcases hr with rfl | rfl | rfl
    · cases hp
      exact ⟨_, List.mem_cons_of_mem _ List.mem_cons_self, rfl⟩
    · cases hp
      exact ⟨_, List.mem_cons_of_mem _ (List.mem_cons_of_mem _ List.mem_cons_self), rfl⟩
    · cases hp
  userRoles := by
    intro ur hur
    obtain rfl : ur = ⟨1, 1⟩ := List.mem_singleton.mp hur
    exact ⟨⟨_, List.mem_cons_self, rfl⟩, _, List.mem_cons_self, rfl⟩
  userGroups := fun ug hug => by cases hug
  groupRoles := fun gr hgr => by cases hgr
  rolePermissions := by
    intro rp hrp
    obtain rfl : rp = ⟨1, 4⟩ := List.mem_singleton.mp hrp
    exact ⟨⟨_, List.mem_cons_self, rfl⟩, _, List.mem_cons_self, rfl⟩

/-- The session of the clerk carries one role, and no permission. -/
theorem crossTenant_mints :
    ∃ p, Mints (handle .offline) crossTenant
        (AuthService.doCreateSession .offline "acme" clerk none none) p ∧
      p.roleIds = [1] ∧ p.permissions = [] := by
  have hstorable : AuthService.Storable .offline crossTenant "acme" clerk := by
    refine ⟨3600, seconds 3600, rfl, rfl, "acme", "x", rfl, rfl, by decide, ?_, rfl, rfl⟩
    intro r hr
    cases hr
  rw [← faulty_none .offline .rowNotFound]
  obtain ⟨p, hp⟩ := AuthService.exists_mints.mpr hstorable
  have hgrants := AuthService.grants_of_mints hp
  refine ⟨p, hp, ?_, ?_⟩
  · have hids : p.roleIds = _ := congrArg AuthService.Grants.roleIds hgrants
    rw [hids]
    decide +kernel
  · have hpermissions : p.permissions = _ := congrArg AuthService.Grants.permissions hgrants
    rw [hpermissions]
    decide +kernel

/-- **What crosses tenants is left out**: the foreign keys hold, but the session of the clerk carries
neither the role of acme above the role of globex, nor the permission of globex. -/
theorem crossTenant_left_out :
    crossTenant.db.References ∧
      ¬ SessionCarries .offline crossTenant "acme" clerk none none
        (crossTenant.db.ReachableRole "acme" 1) (crossTenant.db.AttachedIn "acme") ∧
      ¬ SessionCarries .offline crossTenant "acme" clerk none none
        (crossTenant.db.EffectiveRole "acme" 1) crossTenant.db.Attached := by
  obtain ⟨p, hp, hids, hpermissions⟩ := crossTenant_mints
  have hassigned : crossTenant.db.Assigned "acme" 1 ⟨1, "acme", "Clerk", "clerk", some 2⟩ := by
    refine ⟨?_, rfl, ⟨1, 1⟩, ?_, rfl, rfl⟩
    · exact List.mem_cons_self
    · exact List.mem_cons_self
  refine ⟨crossTenant_references, ?_, ?_⟩
  · rintro ⟨hcarries, -⟩
    have hhead : (3 : Uuid) ∈ p.roleIds := by
      refine ((hcarries p hp).roleIds.2 3).mpr ⟨⟨3, "acme", "Head", "head", none⟩, ⟨?_, rfl, ?_⟩, rfl⟩
      · exact List.mem_cons_of_mem _ (List.mem_cons_of_mem _ List.mem_cons_self)
      · refine ⟨_, .inl hassigned, .tail (.single (b := ⟨2, "globex", "Lead", "lead", some 3⟩) ?_) ?_⟩
        · exact ⟨List.mem_cons_of_mem _ List.mem_cons_self, rfl⟩
        · exact ⟨List.mem_cons_of_mem _ (List.mem_cons_of_mem _ List.mem_cons_self), rfl⟩
    rw [hids] at hhead
    exact absurd hhead (by decide)
  · rintro ⟨hcarries, -⟩
    have haudit : "audit" ∈ p.permissions := by
      refine ((hcarries p hp).permissions.2 "audit").mpr
        ⟨_, ⟨4, "globex", "audit", none, none⟩, ⟨_, .inl hassigned, .refl⟩, ⟨?_, ⟨1, 4⟩, ?_, rfl, rfl⟩, rfl⟩
      · exact List.mem_cons_self
      · exact List.mem_cons_self
    rw [hpermissions] at haudit
    cases haudit

end Authrs
