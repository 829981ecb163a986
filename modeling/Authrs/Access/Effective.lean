import Authrs.Repo.Access
import Authrs.Relational.Closure

/-!
# The effective roles of a user

The recursive queries find the roles of the tenant that are reachable, along parents in the tenant,
from the roles assigned to a user or to the user's groups. The four queries for uids and ids and the
two for permissions start from the same roles and follow the same parents, so they describe the same
set.

## Main definitions

* `ParentIn T`: the parent of a role is a role of the tenant
* `Assigned`, `AssignedToGroup`: a role of the tenant is assigned to the user, or to a group of it
* `EffectiveRole`: a role of the tenant is reachable from an assigned one
* `AttachedIn T`: a permission of the tenant is attached to a role

## Main results

* `Db.mem_ancestors_iff`: what the recursive queries find
* `Db.mem_permissionNames`: the permissions of the roles they find
-/

namespace Authrs

open Relational Relation

namespace Db

variable (db : Db) (T : String) (userId : Uuid)

/-- The parent of a role is a role of the tenant. -/
def ParentIn (a b : RoleRow) : Prop :=
  b ∈ db.roles ∧ b.tenantId = T ∧ a.parentRoleId = some b.id

/-- **A role of the tenant is assigned to the user.** -/
def Assigned (r : RoleRow) : Prop :=
  r ∈ db.roles ∧ r.tenantId = T ∧ ∃ ur ∈ db.userRoles, ur.userId = userId ∧ ur.roleId = r.id

/-- **A role of the tenant is assigned to a group of the user.** -/
def AssignedToGroup (r : RoleRow) : Prop :=
  r ∈ db.roles ∧ r.tenantId = T ∧ ∃ gr ∈ db.groupRoles, gr.roleId = r.id ∧
    ∃ ug ∈ db.userGroups, ug.userId = userId ∧ ug.groupId = gr.groupId

/-- A role of the tenant that is reachable from some roles. -/
def Reachable (start : RoleRow → Prop) (r : RoleRow) : Prop :=
  ∃ a, start a ∧ ReflTransGen (db.ParentIn T) a r

/-- **An effective role of the user**: it is reachable from a role that is assigned to the user or
to one of the user's groups. -/
def EffectiveRole (r : RoleRow) : Prop :=
  db.Reachable T (fun a => db.Assigned T userId a ∨ db.AssignedToGroup T userId a) r

/-- A permission of the tenant is attached to the role. -/
def AttachedIn (r : RoleRow) (p : PermissionRow) : Prop :=
  p ∈ db.permissions ∧ p.tenantId = T ∧
    ∃ rp ∈ db.rolePermissions, rp.roleId = r.id ∧ rp.permissionId = p.id

variable {db T userId}

theorem mem_directRoles {r : RoleRow} :
    r ∈ db.directRoles T userId ↔ db.Assigned T userId r := by
  unfold directRoles Assigned
  rw [Table.mem_select]
  simp only [Bool.and_eq_true, decide_eq_true_eq, List.any_eq_true]
  exact Iff.rfl

theorem mem_groupRolesOf {r : RoleRow} :
    r ∈ db.groupRolesOf T userId ↔ db.AssignedToGroup T userId r := by
  unfold groupRolesOf AssignedToGroup
  rw [Table.mem_select]
  simp only [Bool.and_eq_true, decide_eq_true_eq, List.any_eq_true]
  exact Iff.rfl

/-- A step of the recursion finds parents in the tenant. -/
theorem finds_parentsOf : Finds (db.ParentIn T) (db.parentsOf T) := by
  intro l b
  unfold parentsOf ParentIn
  rw [Table.mem_select]
  simp only [Bool.and_eq_true, decide_eq_true_eq, List.any_eq_true]
  constructor
  · rintro ⟨hb, htenant, a, ha, hparent⟩
    exact ⟨a, ha, hb, htenant, hparent⟩
  · rintro ⟨a, ha, hb, htenant, hparent⟩
    exact ⟨hb, htenant, a, ha, hparent⟩

theorem ancestorsAfter_eq_saturate (rs : List RoleRow) (n : Nat) :
    db.ancestorsAfter T rs n = saturate (db.parentsOf T) rs n := by
  induction n with
  | zero => rfl
  | succ n ih =>
    unfold ancestorsAfter saturate
    rw [ih]

/-- **What the recursive queries find**: the roles that are reachable from the first ones. -/
theorem mem_ancestors_iff {rs : List RoleRow} (hrs : ∀ r ∈ rs, r ∈ db.roles) {r : RoleRow} :
    r ∈ db.ancestors T rs ↔ db.Reachable T (· ∈ rs) r := by
  unfold ancestors Reachable
  rw [ancestorsAfter_eq_saturate]
  exact mem_saturate_iff finds_parentsOf hrs fun l r hr => (Table.mem_select.mp hr).1

/-- The roles found for a user. -/
theorem mem_ancestors_directRoles {r : RoleRow} :
    r ∈ db.ancestors T (db.directRoles T userId) ↔ db.Reachable T (db.Assigned T userId) r := by
  rw [mem_ancestors_iff fun r hr => (mem_directRoles.mp hr).1]
  unfold Reachable
  simp only [mem_directRoles]

/-- The roles found for the groups of a user. -/
theorem mem_ancestors_groupRolesOf {r : RoleRow} :
    r ∈ db.ancestors T (db.groupRolesOf T userId) ↔
      db.Reachable T (db.AssignedToGroup T userId) r := by
  rw [mem_ancestors_iff fun r hr => (mem_groupRolesOf.mp hr).1]
  unfold Reachable
  simp only [mem_groupRolesOf]

/-- An effective role is found for the user or for the groups of the user. -/
theorem effectiveRole_iff {r : RoleRow} :
    db.EffectiveRole T userId r ↔
      r ∈ db.ancestors T (db.directRoles T userId) ∨
        r ∈ db.ancestors T (db.groupRolesOf T userId) := by
  rw [mem_ancestors_directRoles, mem_ancestors_groupRolesOf]
  constructor
  · rintro ⟨a, ha | ha, habove⟩
    · exact .inl ⟨a, ha, habove⟩
    · exact .inr ⟨a, ha, habove⟩
  · rintro (⟨a, ha, habove⟩ | ⟨a, ha, habove⟩)
    · exact ⟨a, .inl ha, habove⟩
    · exact ⟨a, .inr ha, habove⟩

/-- An effective role is a role of the tenant. -/
theorem EffectiveRole.mem {r : RoleRow} (h : db.EffectiveRole T userId r) :
    r ∈ db.roles ∧ r.tenantId = T := by
  obtain ⟨a, ha, habove⟩ := h
  rcases ReflTransGen.cases_tail habove with rfl | ⟨b, -, hmem, hin, -⟩
  · rcases ha with ha | ha
    · exact ⟨ha.1, ha.2.1⟩
    · exact ⟨ha.1, ha.2.1⟩
  · exact ⟨hmem, hin⟩

/-- The permissions of some roles. -/
theorem mem_permissionNames {rs : List RoleRow} {name : String} :
    name ∈ db.permissionNames T rs ↔ ∃ p, (∃ r ∈ rs, db.AttachedIn T r p) ∧ p.name = name := by
  unfold permissionNames AttachedIn
  rw [List.mem_dedup, List.mem_map]
  refine exists_congr fun p => and_congr_left fun _ => ?_
  rw [Table.mem_select]
  simp only [Bool.and_eq_true, decide_eq_true_eq, List.any_eq_true]
  constructor
  · rintro ⟨hp, htenant, rp, hrp, hperm, r, hr, hrole⟩
    exact ⟨r, hr, hp, htenant, rp, hrp, hrole.symm, hperm⟩
  · rintro ⟨r, hr, hp, htenant, rp, hrp, hrole, hperm⟩
    exact ⟨hp, htenant, rp, hrp, hperm, r, hr, hrole.symm⟩

end Db

end Authrs
