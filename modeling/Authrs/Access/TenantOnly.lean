import Authrs.Access.Effective
import Authrs.Routes.Permission

/-!
# Authorization in a tenant depends on the tenant alone

Two databases may differ in the other tenants as they like, also where rows of the other tenants are
linked with each other or with the tenant's. Where they agree on the tenant's users, roles, groups
and permissions and on the junction rows that touch them, they give a user of the tenant the same
roles and documents, and the same decisions.

## Main definitions

* `Db.AgreeOn T`: two databases agree on a tenant
* `Alike R`: two results that fail both, or are related

## Main results

* `Db.AgreeOn.ancestors`: the recursive queries find the same roles
* `documentsFor_perm`: the same documents are loaded
* `authorization_tenant_only`: the gathered roles and documents, and the decisions, are the same
-/

namespace Authrs

open Interaction Relational Relation

namespace Db

/-- The tenant has a user, a role, a group, a permission with the id. -/
def userOf (db : Db) (T : String) (id : Uuid) : Prop := ∃ u ∈ db.users, u.tenantId = T ∧ u.id = id

def roleOf (db : Db) (T : String) (id : Uuid) : Prop := ∃ r ∈ db.roles, r.tenantId = T ∧ r.id = id

def groupOf (db : Db) (T : String) (id : Uuid) : Prop := ∃ g ∈ db.groups, g.tenantId = T ∧ g.id = id

def permissionOf (db : Db) (T : String) (id : Uuid) : Prop :=
  ∃ p ∈ db.permissions, p.tenantId = T ∧ p.id = id

/-- **Two databases agree on a tenant**: on its users, roles, groups and permissions, and on the
junction rows with an end among them. -/
structure AgreeOn (T : String) (a b : Db) : Prop where
  users : ∀ u, u.tenantId = T → (u ∈ a.users ↔ u ∈ b.users)
  roles : ∀ r, r.tenantId = T → (r ∈ a.roles ↔ r ∈ b.roles)
  groups : ∀ g, g.tenantId = T → (g ∈ a.groups ↔ g ∈ b.groups)
  permissions : ∀ p, p.tenantId = T → (p ∈ a.permissions ↔ p ∈ b.permissions)
  userRoles : ∀ x, a.userOf T x.userId ∨ a.roleOf T x.roleId →
    (x ∈ a.userRoles ↔ x ∈ b.userRoles)
  userGroups : ∀ x, a.userOf T x.userId ∨ a.groupOf T x.groupId →
    (x ∈ a.userGroups ↔ x ∈ b.userGroups)
  groupRoles : ∀ x, a.groupOf T x.groupId ∨ a.roleOf T x.roleId →
    (x ∈ a.groupRoles ↔ x ∈ b.groupRoles)
  rolePermissions : ∀ x, a.roleOf T x.roleId ∨ a.permissionOf T x.permissionId →
    (x ∈ a.rolePermissions ↔ x ∈ b.rolePermissions)

namespace AgreeOn

variable {T : String} {a b : Db} (h : AgreeOn T a b) {userId : Uuid}

include h

/-- The same roles are assigned to a user. -/
theorem assigned (r : RoleRow) : a.Assigned T userId r ↔ b.Assigned T userId r := by
  unfold Assigned
  constructor
  · rintro ⟨hr, hin, x, hx, huser, hrole⟩
    exact ⟨(h.roles r hin).mp hr, hin, x,
      (h.userRoles x (.inr ⟨r, hr, hin, hrole.symm⟩)).mp hx, huser, hrole⟩
  · rintro ⟨hr, hin, x, hx, huser, hrole⟩
    have hr' := (h.roles r hin).mpr hr
    exact ⟨hr', hin, x, (h.userRoles x (.inr ⟨r, hr', hin, hrole.symm⟩)).mpr hx, huser, hrole⟩

/-- The same roles are assigned to the groups of a user of the tenant. -/
theorem assignedToGroup (huser : a.userOf T userId) (r : RoleRow) :
    a.AssignedToGroup T userId r ↔ b.AssignedToGroup T userId r := by
  have hmember : ∀ x : UserGroupRow, x.userId = userId → (x ∈ a.userGroups ↔ x ∈ b.userGroups) := by
    rintro x rfl
    exact h.userGroups x (.inl huser)
  unfold AssignedToGroup
  constructor
  · rintro ⟨hr, hin, gr, hgr, hrole, ug, hug, hown, hgroup⟩
    exact ⟨(h.roles r hin).mp hr, hin, gr,
      (h.groupRoles gr (.inr ⟨r, hr, hin, hrole.symm⟩)).mp hgr, hrole, ug,
      (hmember ug hown).mp hug, hown, hgroup⟩
  · rintro ⟨hr, hin, gr, hgr, hrole, ug, hug, hown, hgroup⟩
    have hr' := (h.roles r hin).mpr hr
    exact ⟨hr', hin, gr, (h.groupRoles gr (.inr ⟨r, hr', hin, hrole.symm⟩)).mpr hgr, hrole, ug,
      (hmember ug hown).mpr hug, hown, hgroup⟩

/-- A step of the recursion stays in the tenant, so it is the same in both. -/
theorem reachable {P Q : RoleRow → Prop} (hPQ : ∀ r, P r ↔ Q r) (r : RoleRow) :
    a.Reachable T P r ↔ b.Reachable T Q r := by
  have hstep : ∀ x y, a.ParentIn T x y ↔ b.ParentIn T x y := by
    intro x y
    unfold ParentIn
    constructor
    · rintro ⟨hy, hin, hparent⟩
      exact ⟨(h.roles y hin).mp hy, hin, hparent⟩
    · rintro ⟨hy, hin, hparent⟩
      exact ⟨(h.roles y hin).mpr hy, hin, hparent⟩
  have hsame : a.ParentIn T = b.ParentIn T := by
    funext x y
    exact propext (hstep x y)
  unfold Reachable
  rw [hsame]
  simp only [hPQ]

/-- **The recursive queries find the same roles** for a user. -/
theorem ancestors_directRoles (r : RoleRow) :
    r ∈ a.ancestors T (a.directRoles T userId) ↔ r ∈ b.ancestors T (b.directRoles T userId) := by
  rw [mem_ancestors_directRoles, mem_ancestors_directRoles]
  exact h.reachable h.assigned r

/-- **The recursive queries find the same roles** for the groups of a user of the tenant. -/
theorem ancestors_groupRolesOf (huser : a.userOf T userId) (r : RoleRow) :
    r ∈ a.ancestors T (a.groupRolesOf T userId) ↔
      r ∈ b.ancestors T (b.groupRolesOf T userId) := by
  rw [mem_ancestors_groupRolesOf, mem_ancestors_groupRolesOf]
  exact h.reachable (h.assignedToGroup huser) r

/-- The same documents are attached to the roles. -/
theorem mem_documentsFor {ids ids' : List Uuid} (hids : ∀ id, id ∈ ids ↔ id ∈ ids')
    (x : Uuid × Json) : x ∈ a.documentsFor T ids ↔ x ∈ b.documentsFor T ids' := by
  unfold documentsFor
  simp only [List.mem_filterMap, Table.mem_select, Bool.and_eq_true, decide_eq_true_eq,
    List.any_eq_true, hids]
  constructor
  · rintro ⟨p, ⟨hp, hin, rp, hrp, hperm, hrole⟩, hdoc⟩
    exact ⟨p, ⟨(h.permissions p hin).mp hp, hin, rp,
      (h.rolePermissions rp (.inr ⟨p, hp, hin, hperm.symm⟩)).mp hrp, hperm, hrole⟩, hdoc⟩
  · rintro ⟨p, ⟨hp, hin, rp, hrp, hperm, hrole⟩, hdoc⟩
    have hp' := (h.permissions p hin).mpr hp
    exact ⟨p, ⟨hp', hin, rp,
      (h.rolePermissions rp (.inr ⟨p, hp', hin, hperm.symm⟩)).mpr hrp, hperm, hrole⟩, hdoc⟩

end AgreeOn

end Db

/-! ### Results that are alike -/

/-- **Two results are alike**: both are failures, or they are related. -/
def Alike {ε ε' α β : Type} (R : α → β → Prop) : Except ε α → Except ε' β → Prop
  | .ok a, .ok b => R a b
  | .error _, .error _ => True
  | _, _ => False

namespace Alike

variable {ε ε' α β γ δ : Type} {R : α → β → Prop} {S : γ → δ → Prop} {x : Except ε α}
  {y : Except ε' β}

theorem refl {R : α → α → Prop} (hR : ∀ a, R a a) (x : Except ε α) : Alike R x x := by
  cases x with
  | error e => trivial
  | ok a => exact hR a

/-- Alike steps after alike results are alike. -/
theorem bind (h : Alike R x y) {f : α → Except ε γ} {g : β → Except ε' δ}
    (hfg : ∀ a b, R a b → Alike S (f a) (g b)) : Alike S (x >>= f) (y >>= g) := by
  cases x with
  | error e =>
    cases y with
    | error e' => trivial
    | ok b => exact h.elim
  | ok a =>
    cases y with
    | error e' => exact h.elim
    | ok b => exact hfg a b h

theorem mapError {ε₁ ε₂ : Type} (h : Alike R x y) (f : ε → ε₁) (g : ε' → ε₂) :
    Alike R (x.mapError f) (y.mapError g) := by
  cases x with
  | error e =>
    cases y with
    | error e' => trivial
    | ok b => exact h.elim
  | ok a =>
    cases y with
    | error e' => exact h.elim
    | ok b => exact h

theorem trans {ε'' : Type} {T : β → γ → Prop} {U : α → γ → Prop} {z : Except ε'' γ}
    (hRT : ∀ a b c, R a b → T b c → U a c) (h : Alike R x y) (h' : Alike T y z) :
    Alike U x z := by
  cases y with
  | error e =>
    cases x with
    | ok a => exact h.elim
    | error e' =>
      cases z with
      | ok c => exact h'.elim
      | error e'' => trivial
  | ok b =>
    cases x with
    | error e' => exact h.elim
    | ok a =>
      cases z with
      | error e'' => exact h'.elim
      | ok c => exact hRT a b c h h'

/-- Results that are ok together, with values that are related, are alike. -/
theorem of_ok (hok : ∀ a, x = .ok a → ∃ b, y = .ok b ∧ R a b)
    (hok' : ∀ b, y = .ok b → ∃ a, x = .ok a) : Alike R x y := by
  cases x with
  | ok a =>
    obtain ⟨b, rfl, hab⟩ := hok a rfl
    exact hab
  | error e =>
    cases y with
    | error e' => trivial
    | ok b =>
      obtain ⟨a, ha⟩ := hok' b rfl
      cases ha

theorem eq_toOption {y : Except ε' α} (h : Alike (· = ·) x y) : x.toOption = y.toOption := by
  cases x with
  | error e =>
    cases y with
    | error e' => rfl
    | ok b => exact h.elim
  | ok a =>
    cases y with
    | error e' => exact h.elim
    | ok b =>
      obtain rfl : a = b := h
      rfl

end Alike

/-! ### Lists up to their order -/

/-- Whether the documents can be read does not depend on their order. -/
theorem parseDocuments_perm (fromValue : Json → Except String PermissionDocument)
    {rows rows' : List (Uuid × Json)} (h : rows.Perm rows') :
    Alike List.Perm (PermissionsRepo.parseDocuments fromValue rows)
      (PermissionsRepo.parseDocuments fromValue rows') := by
  induction h with
  | nil => exact List.Perm.refl []
  | cons x _ ih =>
    unfold PermissionsRepo.parseDocuments
    refine Alike.bind (.refl (fun _ => rfl) _) ?_
    rintro doc _ rfl
    exact ih.bind fun docs docs' hdocs => hdocs.cons (x.1, doc)
  | swap x y l =>
    simp only [PermissionsRepo.parseDocuments]
    cases fromValue x.2 with
    | error e =>
      cases fromValue y.2 with
      | error e' => trivial
      | ok doc => trivial
    | ok doc =>
      cases fromValue y.2 with
      | error e' => trivial
      | ok doc' =>
        cases PermissionsRepo.parseDocuments fromValue l with
        | error e => trivial
        | ok docs => exact List.Perm.swap (x.1, doc) (y.1, doc') docs
  | trans _ _ ih ih' => exact Alike.trans (fun _ _ _ h h' => h.trans h') ih ih'

theorem dedup_perm {α : Type} [DecidableEq α] {l l' : List α} (h : ∀ x, x ∈ l ↔ x ∈ l') :
    l.dedup.Perm l'.dedup :=
  (List.perm_ext_iff_of_nodup (List.nodup_dedup l) (List.nodup_dedup l')).mpr fun x => by
    rw [List.mem_dedup, List.mem_dedup, h]

theorem mem_map_congr {α β : Type} {f : α → β} {l l' : List α} (h : ∀ a, a ∈ l ↔ a ∈ l') (x : β) :
    x ∈ l.map f ↔ x ∈ l'.map f := by
  simp only [List.mem_map, h]

/-- Sorted lists without repetitions are given by their elements. -/
theorem insertionSort_dedup_eq {l l' : List String} (h : ∀ x, x ∈ l ↔ x ∈ l') :
    l.dedup.insertionSort (· ≤ ·) = l'.dedup.insertionSort (· ≤ ·) := by
  have hperm : (l.dedup.insertionSort (· ≤ ·)).Perm (l'.dedup.insertionSort (· ≤ ·)) :=
    ((List.perm_insertionSort _ _).trans (dedup_perm h)).trans (List.perm_insertionSort _ _).symm
  exact hperm.eq_of_pairwise' (List.pairwise_insertionSort _ _) (List.pairwise_insertionSort _ _)

namespace Db.AgreeOn

variable {T : String} {a b : Db} (h : a.AgreeOn T b) {userId : Uuid}

include h

theorem uids_direct :
    ((a.ancestors T (a.directRoles T userId)).map (·.uid)).dedup.insertionSort (· ≤ ·) =
      ((b.ancestors T (b.directRoles T userId)).map (·.uid)).dedup.insertionSort (· ≤ ·) :=
  insertionSort_dedup_eq (mem_map_congr h.ancestors_directRoles)

theorem ids_direct :
    ((a.ancestors T (a.directRoles T userId)).map (·.id)).dedup.Perm
      ((b.ancestors T (b.directRoles T userId)).map (·.id)).dedup :=
  dedup_perm (mem_map_congr h.ancestors_directRoles)

theorem uids_groups (hu : a.userOf T userId) :
    ((a.ancestors T (a.groupRolesOf T userId)).map (·.uid)).dedup.insertionSort (· ≤ ·) =
      ((b.ancestors T (b.groupRolesOf T userId)).map (·.uid)).dedup.insertionSort (· ≤ ·) :=
  insertionSort_dedup_eq (mem_map_congr (h.ancestors_groupRolesOf hu))

theorem ids_groups (hu : a.userOf T userId) :
    ((a.ancestors T (a.groupRolesOf T userId)).map (·.id)).dedup.Perm
      ((b.ancestors T (b.groupRolesOf T userId)).map (·.id)).dedup :=
  dedup_perm (mem_map_congr (h.ancestors_groupRolesOf hu))

end Db.AgreeOn

/-- The documents are read from rows with distinct ids. -/
theorem Db.nodup_documentsFor (db : Db) (T : String) (ids : List Uuid) :
    ((db.documentsFor T ids).map Prod.fst).Nodup := by
  unfold Db.documentsFor
  rw [List.Nodup, List.pairwise_map, List.pairwise_filterMap]
  have hkeys : db.permissions.rows.Pairwise fun p p' => p.id ≠ p'.id :=
    List.pairwise_map.mp db.permissions.nodup
  refine (hkeys.sublist List.filter_sublist).imp ?_
  rintro p p' hne b hb b' hb'
  obtain ⟨doc, -, rfl⟩ := Option.map_eq_some_iff.mp hb
  obtain ⟨doc', -, rfl⟩ := Option.map_eq_some_iff.mp hb'
  exact hne

/-- **The same documents are loaded**, in some order. -/
theorem documentsFor_perm {T : String} {a b : Db} (h : a.AgreeOn T b) {ids ids' : List Uuid}
    (hids : ∀ id, id ∈ ids ↔ id ∈ ids') :
    (a.documentsFor T ids).Perm (b.documentsFor T ids') :=
  (List.perm_ext_iff_of_nodup (.of_map _ (a.nodup_documentsFor T ids))
    (.of_map _ (b.nodup_documentsFor T ids'))).mpr (h.mem_documentsFor hids)

section Policies

variable {C : Cedar.Crate}

/-- The permissions make the same set of policies in every order. -/
theorem policySetForRoles_perm (hC : C.ReadsPolicies) {docs docs' : List (Uuid × PermissionDocument)}
    (h : docs.Perm docs') :
    Alike (fun a b => a.policies.Perm b.policies) (policySetForRoles C docs)
      (policySetForRoles C docs') := by
  have hpolicies := h.flatMap_right permissionPolicies
  have hnodup := (hpolicies.map Cedar.Policy.id).nodup_iff
  apply Alike.of_ok
  · intro set hset
    obtain ⟨hcompile, hids, hset⟩ := (policySetForRoles_eq_ok hC).mp hset
    refine ⟨⟨docs'.flatMap permissionPolicies, hnodup.mp hids⟩, ?_, ?_⟩
    · refine (policySetForRoles_eq_ok hC).mpr ⟨fun d hd => ?_, hnodup.mp hids, rfl⟩
      exact hcompile d (h.mem_iff.mpr hd)
    · rw [hset]
      exact hpolicies
  · intro set hset
    obtain ⟨hcompile, hids, -⟩ := (policySetForRoles_eq_ok hC).mp hset
    refine ⟨⟨docs.flatMap permissionPolicies, hnodup.mpr hids⟩, ?_⟩
    refine (policySetForRoles_eq_ok hC).mpr ⟨fun d hd => ?_, hnodup.mpr hids, rfl⟩
    exact hcompile d (h.mem_iff.mp hd)

/-- The decision does not depend on the order of the policies. -/
theorem decision_perm {set set' : Cedar.PolicySet} (h : set.policies.Perm set'.policies)
    (req : Cedar.Request) (es : Cedar.Entities) : set.decision req es = set'.decision req es := by
  have happlies : ∀ effect, set.applies effect req es = set'.applies effect req es := by
    intro effect
    rw [Bool.eq_iff_iff, Cedar.PolicySet.applies_iff, Cedar.PolicySet.applies_iff]
    simp only [h.mem_iff]
  unfold Cedar.PolicySet.decision
  rw [happlies, happlies]

theorem isAllowed_perm (hA : C.Authorizes) {set set' : Cedar.PolicySet}
    (h : set.policies.Perm set'.policies) (schema : C.Schema) (req : AuthzRequest) :
    isAllowed C schema req set = isAllowed C schema req set' := by
  unfold isAllowed authorize
  simp only [hA _ _ _, decision_perm h]

theorem decideEach_perm (hA : C.Authorizes) {set set' : Cedar.PolicySet}
    (h : set.policies.Perm set'.policies) (schema : C.Schema) (userId : Uuid)
    (roleNames : List String) (context : Json) (pairs : List (String × String))
    (decisions : List (String × Bool)) :
    decideEach C schema userId roleNames context set pairs decisions =
      decideEach C schema userId roleNames context set' pairs decisions := by
  induction pairs generalizing decisions with
  | nil => rfl
  | cons pair pairs ih =>
    unfold decideEach
    rw [isAllowed_perm hA h]
    simp only [ih]

end Policies

/-! ### The check -/

section Check

variable {C : Cedar.Crate} {fromValue : Json → Except String PermissionDocument} {schema : C.Schema}
  (w : World) {s s' : State}

/-- Steps that read alike results, and go on alike, are alike. -/
theorem alike_bind {α β γ δ : Type} {R : α → β → Prop} {S : γ → δ → Prop} {p : Service α}
    {p' : Service β} {x : Except Failure α} {y : Except Failure β} {f : α → Service γ}
    {g : β → Service δ} (hp : p.exec (handle w) s = (x, s)) (hp' : p'.exec (handle w) s' = (y, s'))
    (hxy : Alike R x y)
    (hfg : ∀ a b, R a b → Alike S ((f a).exec (handle w) s).1 ((g b).exec (handle w) s').1) :
    Alike S ((p.bind f).exec (handle w) s).1 ((p'.bind g).exec (handle w) s').1 := by
  rw [Program.exec_bind, Program.exec_bind, hp, hp']
  cases x with
  | error e =>
    cases y with
    | error e' => trivial
    | ok b => exact hxy.elim
  | ok a =>
    cases y with
    | error e' => exact hxy.elim
    | ok b => exact hfg a b hxy

/-- A step with the same result in both, and alike steps after it. -/
theorem alike_bind_of_eq {α β γ : Type} {S : β → γ → Prop} {p : Service α} {f : α → Service β}
    {g : α → Service γ} (hp : (p.exec (handle w) s).1 = (p.exec (handle w) s').1)
    (hfg : ∀ a s₁ s₂, Alike S ((f a).exec (handle w) s₁).1 ((g a).exec (handle w) s₂).1) :
    Alike S ((p.bind f).exec (handle w) s).1 ((p.bind g).exec (handle w) s').1 := by
  rw [Program.exec_bind, Program.exec_bind]
  generalize p.exec (handle w) s = x at hp ⊢
  generalize p.exec (handle w) s' = y at hp ⊢
  obtain ⟨x, s₁⟩ := x
  obtain ⟨y, s₂⟩ := y
  obtain rfl : x = y := hp
  cases x with
  | error e => trivial
  | ok a => exact hfg a s₁ s₂

/-- The roles that are gathered. -/
def rolesGathered (db : Db) (T : String) (userId : Uuid) : List String × List Uuid :=
  (dedupChain
    (((db.ancestors T (db.directRoles T userId)).map (·.uid)).dedup.insertionSort (· ≤ ·))
    (((db.ancestors T (db.groupRolesOf T userId)).map (·.uid)).dedup.insertionSort (· ≤ ·)),
  dedupChain ((db.ancestors T (db.directRoles T userId)).map (·.id)).dedup
    ((db.ancestors T (db.groupRolesOf T userId)).map (·.id)).dedup)

theorem exec_gatherRoles (T : String) (userId : Uuid) :
    (gatherRoles T userId).exec (handle w) s = (.ok (rolesGathered s.db T userId), s) := by
  unfold gatherRoles RolesRepo.getUserRoles RolesRepo.getUserRoleIds
    GroupsRepo.getUserGroupRoleUids GroupsRepo.getUserGroupRoleIds
  simp only [Program.bind_eq]
  rw [Program.exec_bind_ok _ (exec_query_read rfl rfl)]
  rw [Program.exec_bind_ok _ (exec_query_read rfl rfl)]
  rw [Program.exec_bind_ok _ (exec_query_read rfl rfl)]
  rw [Program.exec_bind_ok _ (exec_query_read rfl rfl)]
  rfl

theorem exec_getForRoles (T : String) (ids : List Uuid) :
    (PermissionsRepo.getForRoles fromValue T ids).exec (handle w) s =
      ((PermissionsRepo.parseDocuments fromValue (s.db.documentsFor T ids)).mapError .error, s) := by
  unfold PermissionsRepo.getForRoles
  split
  · rename_i hnil
    have hnone : s.db.documentsFor T ids = [] := by
      unfold Db.documentsFor
      subst hnil
      simp [Table.select]
    rw [hnone]
    rfl
  · rw [Program.bind_eq, Program.exec_bind_ok _ (exec_query_read rfl rfl), Service.exec_ofResult]

theorem exec_getPolicySetForRoles (T : String) (ids : List Uuid) :
    (PermissionsService.getPolicySetForRoles C fromValue T ids).exec (handle w) s =
      ((PermissionsRepo.parseDocuments fromValue (s.db.documentsFor T ids) >>=
        policySetForRoles C).mapError .error, s) := by
  unfold PermissionsService.getPolicySetForRoles
  rw [Program.bind_eq, Program.exec_bind, exec_getForRoles]
  cases PermissionsRepo.parseDocuments fromValue (s.db.documentsFor T ids) with
  | error e => rfl
  | ok docs => exact Service.exec_ofResult w s (policySetForRoles C docs)

/-- The decisions are the same from every state. -/
theorem exec_decideEach (userId : Uuid) (roleNames : List String) (context : Json)
    (set : Cedar.PolicySet) (pairs : List (String × String)) (decisions : List (String × Bool)) :
    ((decideEach C schema userId roleNames context set pairs decisions).exec (handle w) s).1 =
      ((decideEach C schema userId roleNames context set pairs decisions).exec (handle w) s').1 := by
  induction pairs generalizing decisions with
  | nil => rfl
  | cons pair pairs ih =>
    unfold decideEach isAllowed
    cases authorize C ⟨userId, roleNames, pair.1, pair.2, context⟩ set schema with
    | none => rfl
    | some decision => exact ih _

variable {T : String} {userId : Uuid}

/-- **The same roles are gathered** for a user of the tenant. -/
theorem rolesGathered_agree (h : s.db.AgreeOn T s'.db) (hu : s.db.userOf T userId) :
    (rolesGathered s.db T userId).1 = (rolesGathered s'.db T userId).1 ∧
      (rolesGathered s.db T userId).2.Perm (rolesGathered s'.db T userId).2 := by
  unfold rolesGathered
  constructor
  · rw [h.uids_direct, h.uids_groups hu]
  · refine (List.perm_ext_iff_of_nodup (nodup_dedupChain _ _) (nodup_dedupChain _ _)).mpr fun id => ?_
    rw [mem_dedupChain, mem_dedupChain, h.ids_direct.mem_iff, (h.ids_groups hu).mem_iff]

/-- **The same documents are gathered** for the same roles. -/
theorem getForRoles_agree (h : s.db.AgreeOn T s'.db) {ids ids' : List Uuid}
    (hids : ∀ id, id ∈ ids ↔ id ∈ ids') :
    Alike List.Perm ((PermissionsRepo.getForRoles fromValue T ids).exec (handle w) s).1
      ((PermissionsRepo.getForRoles fromValue T ids').exec (handle w) s').1 := by
  rw [exec_getForRoles, exec_getForRoles]
  exact (parseDocuments_perm fromValue (documentsFor_perm h hids)).mapError _ _

theorem policySet_agree (hC : C.ReadsPolicies) (h : s.db.AgreeOn T s'.db) {ids ids' : List Uuid}
    (hids : ∀ id, id ∈ ids ↔ id ∈ ids') :
    Alike (fun a b : Cedar.PolicySet => a.policies.Perm b.policies)
      ((PermissionsRepo.parseDocuments fromValue (s.db.documentsFor T ids) >>=
        policySetForRoles C).mapError Failure.error)
      ((PermissionsRepo.parseDocuments fromValue (s'.db.documentsFor T ids') >>=
        policySetForRoles C).mapError Failure.error) := by
  apply Alike.mapError
  refine (parseDocuments_perm fromValue (documentsFor_perm h hids)).bind fun docs docs' hdocs => ?_
  exact policySetForRoles_perm hC hdocs

/-- **The same decisions are made** for a user of the tenant. -/
theorem adminCheckPermission_agree (hC : C.ReadsPolicies) (hA : C.Authorizes) {tenantId : TenantId}
    {body : CheckPermissionBody} (h : s.db.AgreeOn tenantId.val s'.db)
    (hu : s.db.userOf tenantId.val body.userId)
    (actionResources : Except AppError (List (String × String))) :
    Alike (· = ·)
      ((adminCheckPermission C fromValue schema actionResources tenantId body).exec (handle w) s).1
      ((adminCheckPermission C fromValue schema actionResources tenantId body).exec (handle w)
        s').1 := by
  have hgathered : Alike (fun a b => a.1 = b.1 ∧ a.2.Perm b.2)
      (.ok (rolesGathered s.db tenantId.val body.userId) : Except Failure _)
      (.ok (rolesGathered s'.db tenantId.val body.userId) : Except Failure _) :=
    rolesGathered_agree h hu
  unfold adminCheckPermission
  simp only [Program.bind_eq]
  refine alike_bind w (exec_gatherRoles w _ _) (exec_gatherRoles w _ _) hgathered ?_
  rintro ⟨roleNames, ids⟩ ⟨_, ids'⟩ ⟨rfl, hids⟩
  refine alike_bind w (exec_getPolicySetForRoles w _ _) (exec_getPolicySetForRoles w _ _)
    (policySet_agree hC h fun id => hids.mem_iff) ?_
  intro set set' hset
  cases body.action with
  | some action =>
    simp only [isAllowed_perm hA hset]
    unfold isAllowed
    cases authorize C _ set' schema with
    | none => trivial
    | some decision => rfl
  | none =>
    have hpairs : Alike (· = ·) (actionResources.mapError Failure.error)
        (actionResources.mapError Failure.error) := .refl (fun _ => rfl) _
    refine alike_bind w (Service.exec_ofResult w s _) (Service.exec_ofResult w s' _) hpairs ?_
    rintro pairs _ rfl
    simp only [decideEach_perm hA hset]
    refine alike_bind_of_eq w (exec_decideEach w _ _ _ _ _ _) ?_
    intro decisions s₁ s₂
    rfl

/-- **Authorization in a tenant depends on the tenant alone**: states that agree on a tenant give a
user of the tenant the same roles, the same documents, and the same decisions. -/
theorem authorization_tenant_only (hC : C.ReadsPolicies) (hA : C.Authorizes) (tenantId : TenantId)
    (h : s.db.AgreeOn tenantId.val s'.db) (hu : s.db.userOf tenantId.val userId) :
    ((RolesRepo.getUserRoles tenantId.val userId).exec (handle w) s).1 =
        ((RolesRepo.getUserRoles tenantId.val userId).exec (handle w) s').1 ∧
      Alike List.Perm ((RolesRepo.getUserRoleIds tenantId.val userId).exec (handle w) s).1
        ((RolesRepo.getUserRoleIds tenantId.val userId).exec (handle w) s').1 ∧
      ((GroupsRepo.getUserGroupRoleUids tenantId.val userId).exec (handle w) s).1 =
        ((GroupsRepo.getUserGroupRoleUids tenantId.val userId).exec (handle w) s').1 ∧
      Alike List.Perm ((GroupsRepo.getUserGroupRoleIds tenantId.val userId).exec (handle w) s).1
        ((GroupsRepo.getUserGroupRoleIds tenantId.val userId).exec (handle w) s').1 ∧
      (∀ ids ids' : List Uuid, (∀ id, id ∈ ids ↔ id ∈ ids') →
        Alike List.Perm ((PermissionsRepo.getForRoles fromValue tenantId.val ids).exec (handle w) s).1
          ((PermissionsRepo.getForRoles fromValue tenantId.val ids').exec (handle w) s').1) ∧
      ∀ (actionResources : Except AppError (List (String × String))) (body : CheckPermissionBody),
        body.userId = userId →
          ((adminCheckPermission C fromValue schema actionResources tenantId body).exec (handle w)
              s).1.toOption =
            ((adminCheckPermission C fromValue schema actionResources tenantId body).exec (handle w)
              s').1.toOption := by
  refine ⟨?_, ?_, ?_, ?_, fun ids ids' hids => getForRoles_agree w h hids, ?_⟩
  · unfold RolesRepo.getUserRoles
    rw [exec_query_read rfl rfl, exec_query_read rfl rfl, h.uids_direct]
  · unfold RolesRepo.getUserRoleIds
    rw [exec_query_read rfl rfl, exec_query_read rfl rfl]
    exact h.ids_direct
  · unfold GroupsRepo.getUserGroupRoleUids
    rw [exec_query_read rfl rfl, exec_query_read rfl rfl, h.uids_groups hu]
  · unfold GroupsRepo.getUserGroupRoleIds
    rw [exec_query_read rfl rfl, exec_query_read rfl rfl]
    exact h.ids_groups hu
  · rintro actionResources body rfl
    exact (adminCheckPermission_agree w hC hA h hu actionResources).eq_toOption

end Check

/-- A clerk of acme, and some roles of globex. -/
def clerkOfAcme (globex : List RoleRow) (h : ((⟨1, "acme", "Clerk", "clerk", none⟩ :: globex).map
    RoleRow.id).Nodup) : State :=
  .ofDb { Db.empty with
    users := .single ⟨1, "acme", 7, none, "active", none, 0, 0⟩
    roles := ⟨⟨1, "acme", "Clerk", "clerk", none⟩ :: globex, h⟩
    userRoles := .single ⟨1, 1⟩ } 0

/-- A role of globex that is its own parent changes nothing in acme. -/
theorem authorization_tenant_only_clerk :
    ((adminCheckPermission Cedar.reference (fun _ => .error "") ⟨[], []⟩ (.ok []) ⟨"acme", by decide⟩
        ⟨1, "service:core", some "run", none⟩).exec (handle .offline)
          (clerkOfAcme [] (by decide))).1.toOption =
      ((adminCheckPermission Cedar.reference (fun _ => .error "") ⟨[], []⟩ (.ok []) ⟨"acme", by decide⟩
        ⟨1, "service:core", some "run", none⟩).exec (handle .offline)
          (clerkOfAcme [⟨2, "globex", "Loop", "loop", some 2⟩] (by decide))).1.toOption := by
  have hagree : (clerkOfAcme [] (by decide)).db.AgreeOn "acme"
      (clerkOfAcme [⟨2, "globex", "Loop", "loop", some 2⟩] (by decide)).db := by
    refine ⟨fun _ _ => Iff.rfl, ?_, fun _ _ => Iff.rfl, fun _ _ => Iff.rfl, fun _ _ => Iff.rfl,
      fun _ _ => Iff.rfl, fun _ _ => Iff.rfl, fun _ _ => Iff.rfl⟩
    intro r hr
    constructor
    · intro hmem
      exact List.mem_cons.mpr (.inl (List.mem_singleton.mp hmem))
    · intro hmem
      rcases List.mem_cons.mp hmem with rfl | hmem
      · exact List.mem_cons_self
      · rw [List.mem_singleton.mp hmem] at hr
        exact absurd hr (by decide)
  have huser : (clerkOfAcme [] (by decide)).db.userOf "acme" 1 := ⟨_, List.mem_cons_self, rfl, rfl⟩
  exact (authorization_tenant_only .offline Cedar.reference_readsPolicies Cedar.reference_authorizes
    ⟨"acme", by decide⟩ hagree huser).2.2.2.2.2 (.ok []) ⟨1, "service:core", some "run", none⟩ rfl

end Authrs
