import Authrs.Access.Resolution
import Authrs.Interaction.Serial

/-!
# The role hierarchy of calls made one after the other

`set_parent` walks up from the new parent, and relies on the walk to end and to find all that is above;
that it does is what the walk itself maintains. In a run of calls made one after the other a move is
refused exactly when it would close a cycle, or names a role of no or of another tenant.

## Main definitions

* `Db.RoleForest`: parents are roles of the tenant, and no role is above itself
* `callAlone`: a call made alone

## Main results

* `exec_setParent_ok`, `exec_setParent_error`: the calls that are accepted, and those that are not
* `callAlone_forest`: a call keeps the forest
* `exec_getRoleAncestors`: the ancestors that are found
* `set_parent_exact`: all of this in every state of a run
-/

namespace Authrs

open Interaction Relational Relation

/-- **The roles are a forest.** -/
structure Db.RoleForest (db : Db) : Prop where
  sound : db.HierarchySound
  acyclic : db.AcyclicRoles

/-! ### Walks in a forest -/

section Walks

variable {db db' : Db} {T : String} {p c : Uuid}

/-- A role has one parent. -/
theorem Db.ParentOf.unique {a b b' : Uuid} (h : db.ParentOf a b) (h' : db.ParentOf a b') : b = b' := by
  obtain ⟨r, hr, rfl, hb⟩ := h
  obtain ⟨r', hr', hid, hb'⟩ := h'
  obtain rfl := Table.eq_of_key_eq hr' hr hid
  exact Option.some.inj (hb.symm.trans hb')

/-- What a walk finds is at or above its start. -/
theorem above_of_climb {n : Nat} {r : RoleRow} {x : Uuid} (hr : r ∈ db.roles)
    (h : db.climb T c n (some r) = .ok (some x)) : db.AtOrAbove r.id c := by
  induction n generalizing r with
  | zero => cases h
  | succ n ih =>
    rw [Db.climb] at h
    split at h
    · rename_i heq
      rw [heq]
      exact .refl
    · cases hup : nextUp db T r with
      | none =>
        change db.climb T c n (nextUp db T r) = _ at h
        rw [hup, Db.climb] at h
        cases h
      | some b =>
        change db.climb T c n (nextUp db T r) = _ at h
        rw [hup] at h
        obtain ⟨hb, hparent⟩ := nextUp_eq_some hup
        exact .head ⟨r, hr, rfl, hparent⟩ (ih hb h)

/-- **The walk up from a role of the tenant** finds what is at or above it. -/
theorem exec_cycleProbe (h : db.RoleForest) (hp : db.ownsRole T p) (hne : p ≠ c) :
    ∃ found, (RoleStmt.cycleProbe p c T).exec db = .ok (found, db) ∧
      (found = none ↔ ¬ db.AtOrAbove p c) := by
  obtain ⟨found, hfound⟩ := (walksEnd_of_acyclic h.acyclic).1 p c T
  refine ⟨found, hfound, ?_⟩
  obtain ⟨r, hr, hid, htenant, -⟩ := roleIn_of_owns hp
  constructor
  · rintro rfl
    refine not_above_of_probe h.sound (fun x hx hxid => ?_) hne hfound
    rw [Table.eq_of_key_eq hx hr (hxid.trans hid.symm)]
    exact htenant
  · intro hnot
    cases found with
    | none => rfl
    | some x =>
      obtain ⟨y, hclimb, hy⟩ := bind_eq_ok.mp hfound
      cases hy
      have hsel : db.roles.selectOne (fun r => r.id = p) = some r := Table.selectOne_key.mpr ⟨hr, hid⟩
      rw [hsel] at hclimb
      exact absurd (hid ▸ above_of_climb hr hclimb) hnot

/-- Without a parent nothing is above a role. -/
theorem not_transGen_of_root {r : RoleRow} (hr : r ∈ db.roles) (hroot : r.parentRoleId = none)
    (id : Uuid) : ¬ TransGen db.ParentOf r.id id := by
  intro habove
  obtain ⟨b, ⟨x, hx, hid, hb⟩, -⟩ := TransGen.head'_iff.mp habove
  rw [Table.eq_of_key_eq hx hr hid, hroot] at hb
  cases hb

/-- The next role up is the parent. -/
theorem nextUp_of_sound (h : db.HierarchySound) {r : RoleRow} (hr : r ∈ db.roles)
    (htenant : r.tenantId = T) :
    (r.parentRoleId = none ∧ nextUp db T r = none) ∨
      ∃ b ∈ db.roles, b.tenantId = T ∧ r.parentRoleId = some b.id ∧ nextUp db T r = some b := by
  cases hparent : r.parentRoleId with
  | none =>
    refine .inl ⟨rfl, ?_⟩
    unfold nextUp
    rw [hparent]
    rfl
  | some p =>
    obtain ⟨b, hb, rfl, hbt, hfind⟩ := roleIn_of_owns (htenant ▸ h.parents r hr p hparent)
    refine .inr ⟨b, hb, hbt, rfl, ?_⟩
    unfold nextUp
    rw [hparent]
    exact hfind

/-- **The chain of a role of the tenant**: the role and what is above it, in this order. -/
theorem chain_of_forest (h : db.RoleForest) {n : Nat} {r : RoleRow} {l : List RoleRow}
    (hr : r ∈ db.roles) (htenant : r.tenantId = T) (hl : db.chain T n (some r) = .ok l) :
    (∀ x, x ∈ l ↔ x ∈ db.roles ∧ db.AtOrAbove r.id x.id) ∧
      l.Pairwise fun a b => TransGen db.ParentOf a.id b.id := by
  induction n generalizing r l with
  | zero => cases hl
  | succ n ih =>
    rw [Db.chain] at hl
    obtain ⟨above, habove, hl⟩ := bind_eq_ok.mp hl
    cases hl
    change db.chain T n (nextUp db T r) = _ at habove
    have hself : ∀ x : RoleRow, x ∈ db.roles → r.id = x.id → x = r := fun x hx hid =>
      Table.eq_of_key_eq hx hr hid.symm
    rcases nextUp_of_sound h.sound hr htenant with ⟨hroot, hup⟩ | ⟨b, hb, hbt, hparent, hup⟩
    · rw [hup, Db.chain] at habove
      cases habove
      refine ⟨fun x => ?_, List.pairwise_singleton _ _⟩
      rw [List.mem_singleton]
      constructor
      · rintro rfl
        exact ⟨hr, .refl⟩
      · rintro ⟨hx, hway⟩
        rcases reflTransGen_iff_eq_or_transGen.mp hway with heq | hway
        · exact hself x hx heq.symm
        · exact absurd hway (not_transGen_of_root hr hroot _)
    · rw [hup] at habove
      obtain ⟨hmem, hpairwise⟩ := ih hb hbt habove
      have hstep : db.ParentOf r.id b.id := ⟨r, hr, rfl, hparent⟩
      constructor
      · intro x
        rw [List.mem_cons, hmem]
        constructor
        · rintro (rfl | ⟨hx, hway⟩)
          · exact ⟨hr, .refl⟩
          · exact ⟨hx, .head hstep hway⟩
        · rintro ⟨hx, hway⟩
          rcases hway.cases_head with heq | ⟨b', hb', hway⟩
          · exact .inl (hself x hx heq)
          · rw [hb'.unique hstep] at hway
            exact .inr ⟨hx, hway⟩
      · refine List.pairwise_cons.mpr ⟨fun x hx => ?_, hpairwise⟩
        exact TransGen.head' hstep ((hmem x).mp hx).2

/-- **The ancestors of a role**: all that is above it, each once, what is above another first. -/
theorem getRoleAncestors_of_forest (h : db.RoleForest) {roleId : Uuid} (hrole : db.ownsRole T roleId) :
    ∃ l : List RoleRow, (RoleStmt.getRoleAncestors T roleId).exec db =
        .ok (l.map fun r => (r.id, r.name, r.uid), db) ∧ l.Nodup ∧
      (∀ r, r ∈ l ↔ r ∈ db.roles ∧ TransGen db.ParentOf roleId r.id) ∧
      l.Pairwise fun a b => TransGen db.ParentOf b.id a.id := by
  obtain ⟨r, hr, rfl, htenant, hfind⟩ := roleIn_of_owns hrole
  obtain ⟨found, hfound⟩ := (walksEnd_of_acyclic h.acyclic).2 T r.id
  obtain ⟨l, hl, hrows⟩ := bind_eq_ok.mp hfound
  rw [hfind, Option.bind_some] at hl
  change db.chain T _ (nextUp db T r) = _ at hl
  have hexec : (RoleStmt.getRoleAncestors T r.id).exec db =
      .ok (l.reverse.map fun r => (r.id, r.name, r.uid), db) := by
    rw [hfound, ← hrows, List.map_reverse]
  have hirrefl : ∀ {l : List RoleRow}, l.Pairwise (fun a b => TransGen db.ParentOf a.id b.id) →
      l.Nodup := by
    intro l hpairwise
    refine List.Pairwise.imp ?_ hpairwise
    rintro a b hab rfl
    exact h.acyclic a.id hab
  rcases nextUp_of_sound h.sound hr htenant with ⟨hroot, hup⟩ | ⟨b, hb, hbt, hparent, hup⟩
  · rw [hup, Db.chain] at hl
    cases hl
    refine ⟨[], hexec, List.nodup_nil, fun x => ?_, List.Pairwise.nil⟩
    refine iff_of_false List.not_mem_nil ?_
    rintro ⟨-, hway⟩
    exact not_transGen_of_root hr hroot _ hway
  · rw [hup] at hl
    obtain ⟨hmem, hpairwise⟩ := chain_of_forest h hb hbt hl
    have hstep : db.ParentOf r.id b.id := ⟨r, hr, rfl, hparent⟩
    refine ⟨l.reverse, hexec, List.nodup_reverse.mpr (hirrefl hpairwise), fun x => ?_,
      List.pairwise_reverse.mpr hpairwise⟩
    rw [List.mem_reverse, hmem]
    refine and_congr_right fun hx => ⟨fun hway => TransGen.head' hstep hway, fun hway => ?_⟩
    obtain ⟨b', hb', hway⟩ := TransGen.head'_iff.mp hway
    rw [hb'.unique hstep] at hway
    exact hway

end Walks

/-! ### Calls made alone -/

section Calls

variable {w : World} {s : State} {T : String}

/-- **A statement keeps the forest**, unless it closes a cycle or leaves the tenant. -/
theorem Db.RoleForest.exec {db db' : Db} (h : db.RoleForest) {env : SqlEnv} {q : Sql} {r : q.Rows}
    (hexec : q.exec env db = .ok (r, db')) (hguard : q.Guarded db)
    (hedge : ∀ a b, q.addsParent = some (a, b) → ¬ db.AtOrAbove b a) : db'.RoleForest := by
  refine ⟨Sql.exec_hierarchySound hexec hguard h.sound, ?_⟩
  cases hadds : q.addsParent with
  | none => exact h.acyclic.mono fun _ _ => Sql.exec_addsNone hexec hadds
  | some ab => exact (Sql.exec_addsEdge hexec hadds).acyclic h.acyclic (hedge _ _ hadds)

/-- The rows with the id of a role of the tenant are of the tenant. -/
theorem roleOnlyIn_of_owns {db : Db} {id : Uuid} (h : db.ownsRole T id) : db.roleOnlyIn T id := by
  obtain ⟨r, hr, hid, htenant, -⟩ := roleIn_of_owns h
  intro x hx hxid
  rw [Table.eq_of_key_eq hx hr (hxid.trans hid.symm)]
  exact htenant

theorem exec_existsInTenant (id : Uuid) :
    (query (.roles (.existsInTenant id T))).exec (handle w) s =
      (.ok ((s.db.roleIn T id).map (·.id)), s) :=
  exec_query_read rfl rfl

/-- What a validated parent is. -/
def ValidParent (db : Db) (T : String) (parent child : Option Uuid) : Prop :=
  ∀ p, parent = some p → db.ownsRole T p ∧ ∀ c, child = some c → ¬ db.AtOrAbove p c

/-- **A check** leaves the state alone, and passes exactly when `P` holds. -/
def Checks (w : World) (s : State) (p : Service Unit) (P : Prop) : Prop :=
  ∃ r, p.exec (handle w) s = (r, s) ∧ (r = .ok () ↔ P)

namespace Checks

variable {p p' : Service Unit} {P P' : Prop}

theorem congr (hp : Checks w s p P) (h : P ↔ P') : Checks w s p P' := by
  obtain ⟨r, hr, hiff⟩ := hp
  exact ⟨r, hr, hiff.trans h⟩

theorem ensure (c : Prop) [Decidable c] (e : AppError) : Checks w s (Service.ensure c e) c := by
  refine ⟨_, Service.exec_ensure w s c e, ?_⟩
  by_cases hc : c
  · simp [hc]
  · simp [hc]

theorem passed (hp : Checks w s p P) (h : P) {α : Type} (f : Unit → Service α) :
    (p.bind f).exec (handle w) s = (f ()).exec (handle w) s := by
  obtain ⟨r, hr, hiff⟩ := hp
  rw [hiff.mpr h] at hr
  exact Program.exec_bind_ok _ hr f

theorem failed (hp : Checks w s p P) (h : ¬ P) {α : Type} (f : Unit → Service α) :
    ∃ e, (p.bind f).exec (handle w) s = (.error e, s) := by
  obtain ⟨r, hr, hiff⟩ := hp
  cases r with
  | ok a => exact absurd (hiff.mp rfl) h
  | error e => exact ⟨e, Program.exec_bind_error _ hr f⟩

/-- Two checks, one after the other. -/
theorem both (hp : Checks w s p P) (hp' : P → Checks w s p' P') :
    Checks w s (p.bind fun _ => p') (P ∧ P') := by
  by_cases h : P
  · obtain ⟨r, hr, hiff⟩ := hp' h
    refine ⟨r, (hp.passed h _).trans hr, ?_⟩
    rw [hiff, and_iff_right h]
  · obtain ⟨e, he⟩ := hp.failed h fun _ => p'
    exact ⟨.error e, he, by simp [h]⟩

/-- A check of what a statement reads. -/
theorem read {q : Sql} {rows : q.Rows} {f : q.Rows → Service Unit}
    (hq : q.exec (s.sqlEnv w) s.db = .ok (rows, s.db)) (hdrawn : q.drawn = 0)
    (hf : Checks w s (f rows) P) : Checks w s ((query q).bind f) P := by
  obtain ⟨r, hr, hiff⟩ := hf
  exact ⟨r, (Program.exec_bind_ok _ (exec_query_read hq hdrawn) f).trans hr, hiff⟩

end Checks

/-- Whether a role of the tenant is found. -/
theorem roleIn_map_ne_none {db : Db} {id : Uuid} :
    (db.roleIn T id).map (·.id) ≠ none ↔ db.ownsRole T id := by
  rw [← Db.roleIn_isSome]
  cases db.roleIn T id with
  | none => simp
  | some r => simp

theorem checks_validateNoCycle (h : s.db.RoleForest) {p c : Uuid} (hp : s.db.ownsRole T p) :
    Checks w s (RolesRepo.validateNoCycle T p c) (¬ s.db.AtOrAbove p c) := by
  by_cases hne : p = c
  · -- refused before the walk
    refine ((Checks.ensure _ _).both fun hnot => (absurd hne hnot : Checks w s _ True)).congr ?_
    subst hne
    simp [Db.AtOrAbove, ReflTransGen.refl]
  · obtain ⟨found, hprobe, hiff⟩ := exec_cycleProbe h hp hne
    refine ((Checks.ensure _ _).both fun _ => Checks.read (q := .roles (.cycleProbe p c T)) hprobe rfl (Checks.ensure _ _)).congr ?_
    rw [hiff]
    exact and_iff_right hne

theorem checks_validateParentOpt (h : s.db.RoleForest) (parent child : Option Uuid) :
    Checks w s (RolesRepo.validateParentOpt T parent child) (ValidParent s.db T parent child) := by
  cases parent with
  | none =>
    refine ⟨.ok (), rfl, iff_of_true rfl ?_⟩
    rintro p ⟨⟩
  | some p =>
    have hfound : Checks w s (Service.ensure ((s.db.roleIn T p).map (·.id) ≠ none)
        (.notFound "Parent role not found in tenant")) (s.db.ownsRole T p) :=
      (Checks.ensure _ _).congr roleIn_map_ne_none
    unfold RolesRepo.validateParentOpt RolesRepo.validateParent
    cases child with
    | none =>
      have hdone : Checks w s (Pure.pure ()) True := ⟨.ok (), rfl, by simp⟩
      refine (Checks.read rfl rfl (hfound.both fun _ => hdone)).congr ?_
      simp [ValidParent]
    | some c =>
      refine (Checks.read rfl rfl (hfound.both fun hp => checks_validateNoCycle h hp)).congr ?_
      simp [ValidParent]

/-- A valid parent can be written. -/
theorem setParent_exec {db : Db} {env : SqlEnv} {roleId : Uuid} {parent : Option Uuid}
    (hvalid : ValidParent db T parent (some roleId)) :
    (Sql.roles (.setParent parent roleId T)).exec env db =
      .ok (db.roles.affected fun r => r.id = roleId && r.tenantId = T, db.reparent parent roleId T) := by
  have hexists : (parent.any fun p => (db.roles.selectOne fun r => r.id = p).isNone) = false := by
    cases parent with
    | none => rfl
    | some p =>
      obtain ⟨r, hr, hid, -, -⟩ := roleIn_of_owns (hvalid p rfl).1
      rw [Option.any_some, Table.selectOne_key.mpr ⟨hr, hid⟩]
      rfl
  change (RoleStmt.setParent parent roleId T).exec db = _
  unfold RoleStmt.exec
  simp only [hexists, Bool.and_false, Bool.false_eq_true, if_false]
  rfl

/-- **The moves that are accepted**, or refused. -/
theorem exec_setParent (h : s.db.RoleForest) (roleId : Uuid) (parent : Option Uuid) :
    (s.db.ownsRole T roleId ∧ ValidParent s.db T parent (some roleId) →
      (RolesRepo.setParent T roleId parent).exec (handle w) s =
        (.ok (), { s with db := s.db.reparent parent roleId T })) ∧
    (¬ (s.db.ownsRole T roleId ∧ ValidParent s.db T parent (some roleId)) →
      ∃ e, (RolesRepo.setParent T roleId parent).exec (handle w) s = (.error e, s)) := by
  have hfound : Checks w s (Service.ensure ((s.db.roleIn T roleId).map (·.id) ≠ none)
      (.notFound "Role not found in tenant")) (s.db.ownsRole T roleId) :=
    (Checks.ensure _ _).congr roleIn_map_ne_none
  have hparent : Checks w s _ _ := checks_validateParentOpt (w := w) (T := T) h parent (some roleId)
  unfold RolesRepo.setParent
  simp only [Program.bind_eq]
  rw [Program.exec_bind_ok _ (exec_existsInTenant roleId)]
  constructor
  · rintro ⟨hrole, hvalid⟩
    rw [hfound.passed hrole, hparent.passed hvalid]
    unfold execute
    rw [Program.bind_eq, Program.exec_bind_ok _ (exec_query_ok (setParent_exec hvalid))]
    rfl
  · intro hnot
    by_cases hrole : s.db.ownsRole T roleId
    · rw [hfound.passed hrole]
      exact hparent.failed (fun hvalid => hnot ⟨hrole, hvalid⟩) _
    · exact hfound.failed hrole _

/-- A new role is not above its parent. -/
theorem Db.RoleForest.insert {db db' : Db} (h : db.RoleForest) {env : SqlEnv} {id : Uuid}
    {name uid : String} {parent : Option Uuid} {n : Nat} (hvalid : ValidParent db T parent none)
    (hexec : (Sql.roles (.insert id T name uid parent)).exec env db = .ok (n, db')) :
    db'.RoleForest := by
  refine h.exec hexec ?_ ?_
  · cases parent with
    | none => exact trivial
    | some p => exact roleOnlyIn_of_owns (hvalid p rfl).1
  · intro a b hadds habove
    cases parent with
    | none => cases hadds
    | some p =>
      obtain ⟨rfl, rfl⟩ : id = a ∧ p = b := Prod.mk.inj (Option.some.inj hadds)
      obtain ⟨r, hr, hid, -⟩ := (hvalid p rfl).1
      have hnew := (insert_used hexec).1
      exact hnew r hr (hid.trans (Db.AtOrAbove.eq_of_new h.sound hnew habove))

theorem create_forest (h : s.db.RoleForest) (name : String) (parent : Option Uuid) :
    ((RolesRepo.create w T name parent).exec (handle w) s).2.db.RoleForest := by
  have hparent : Checks w s _ _ := checks_validateParentOpt (w := w) (T := T) h parent none
  unfold RolesRepo.create
  simp only [Program.bind_eq]
  by_cases hname : trim name ≠ ""
  · rw [(Checks.ensure _ _).passed hname]
    unfold RolesRepo.getRoleIdByUid
    rw [Program.exec_bind_ok _ (exec_query_read rfl rfl)]
    by_cases hfree : (s.db.roles.selectOne fun r =>
        r.tenantId = T && r.uid = toUid w (trim name)).map (·.id) = none
    · rw [(Checks.ensure _ _).passed hfree]
      by_cases hvalid : ValidParent s.db T parent none
      · rw [hparent.passed hvalid, Program.exec_bind_ok _ (exec_newUuid w s)]
        refine (congrArg Db.RoleForest (exec_bind_pure_db _ _)).mpr ?_
        exact exec_execute_db (R := Db.RoleForest) h rfl fun _ _ hexec => h.insert hvalid hexec
      · obtain ⟨e, he⟩ := hparent.failed hvalid _
        rw [he]
        exact h
    · obtain ⟨e, he⟩ := (Checks.ensure _ _).failed hfree _
      rw [he]
      exact h
  · obtain ⟨e, he⟩ := (Checks.ensure _ _).failed hname _
    rw [he]
    exact h

theorem setParent_forest (h : s.db.RoleForest) (roleId : Uuid) (parent : Option Uuid) :
    ((RolesRepo.setParent T roleId parent).exec (handle w) s).2.db.RoleForest := by
  by_cases hvalid : s.db.ownsRole T roleId ∧ ValidParent s.db T parent (some roleId)
  · rw [(exec_setParent h roleId parent).1 hvalid]
    refine h.exec (@setParent_exec T s.db (s.sqlEnv w) roleId parent hvalid.2) ?_ ?_
    · cases parent with
      | none => exact trivial
      | some p => exact roleOnlyIn_of_owns (hvalid.2 p rfl).1
    · intro a b hadds
      cases parent with
      | none => cases hadds
      | some p =>
        obtain ⟨rfl, rfl⟩ : roleId = a ∧ p = b := Prod.mk.inj (Option.some.inj hadds)
        exact (hvalid.2 p rfl).2 roleId rfl
  · obtain ⟨e, he⟩ := (exec_setParent h roleId parent).2 hvalid
    rw [he]
    exact h

theorem delete_forest (h : s.db.RoleForest) (roleId : Uuid) :
    ((RolesRepo.delete T roleId).exec (handle w) s).2.db.RoleForest := by
  refine (congrArg Db.RoleForest (exec_bind_pure_db _ _)).mpr ?_
  refine exec_query_db (R := Db.RoleForest) h rfl fun _ _ hexec => h.exec hexec trivial ?_
  rintro a b ⟨⟩

/-- The state after a call made alone. -/
def callAlone (w : World) (s : State) (call : RepoCall) : State := ((call.run w).exec (handle w) s).2

/-- **A call on roles keeps the forest.** -/
theorem callAlone_forest (h : s.db.RoleForest) {call : RepoCall} (hcall : call.OnRoles) :
    (callAlone w s call).db.RoleForest := by
  unfold callAlone
  cases call with
  | createRole T name parent =>
    exact (congrArg Db.RoleForest (exec_bind_pure_db _ _)).mpr (create_forest h name parent)
  | setParent T roleId parent => exact setParent_forest h roleId parent
  | deleteRole T roleId =>
    exact (congrArg Db.RoleForest (exec_bind_pure_db _ _)).mpr (delete_forest h roleId)
  | _ => exact hcall.elim

/-- Without roles there is a forest. -/
theorem roleForest_of_empty {db : Db} (hempty : db.roles.rows = []) : db.RoleForest := by
  have hnone : ∀ r : RoleRow, r ∉ db.roles := by
    intro r hr
    rw [Table.mem_def, hempty] at hr
    cases hr
  refine ⟨⟨fun r hr => absurd hr (hnone r), fun r hr => absurd hr (hnone r)⟩, fun a hway => ?_⟩
  obtain ⟨b, ⟨r, hr, -⟩, -⟩ := TransGen.head'_iff.mp hway
  exact hnone r hr

/-- **`set_parent` accepts exactly the acyclic changes.** In every state that calls on roles, one after
the other, reach from one without roles: a role gets a parent exactly when both are roles of the tenant
and the parent is neither the role nor below it, and otherwise nothing changes; the roles are a forest;
and the ancestors of a role are what is above it, each once, the root first. -/
theorem set_parent_exact (w : World) {s₀ : State} (hempty : s₀.db.roles.rows = [])
    (calls : List RepoCall) (hcalls : ∀ c ∈ calls, c.OnRoles) (s : State)
    (hs : s = finalState (callAlone w) s₀ calls) (T : String) :
    (∀ roleId p : Uuid,
      (((RolesRepo.setParent T roleId (some p)).exec (handle w) s).1 = .ok () ↔
        s.db.ownsRole T roleId ∧ s.db.ownsRole T p ∧ ¬ s.db.AtOrAbove p roleId) ∧
      (((RolesRepo.setParent T roleId (some p)).exec (handle w) s).1 = .ok () →
        ((RolesRepo.setParent T roleId (some p)).exec (handle w) s).2 =
          { s with db := s.db.reparent (some p) roleId T }) ∧
      (((RolesRepo.setParent T roleId (some p)).exec (handle w) s).1 ≠ .ok () →
        ((RolesRepo.setParent T roleId (some p)).exec (handle w) s).2 = s)) ∧
    s.db.AcyclicRoles ∧ (∀ a b b', s.db.ParentOf a b → s.db.ParentOf a b' → b = b') ∧
    (∀ r ∈ s.db.roles, ∀ p, r.parentRoleId = some p → s.db.ownsRole r.tenantId p) ∧
    ∀ roleId, s.db.ownsRole T roleId → ∃ l : List RoleRow,
      (RolesRepo.getRoleAncestors T roleId).exec (handle w) s =
        (.ok (l.map fun r => (r.id, r.name, r.uid)), s) ∧ l.Nodup ∧
      (∀ r, r ∈ l ↔ r ∈ s.db.roles ∧ TransGen s.db.ParentOf roleId r.id) ∧
      l.Pairwise fun a b => TransGen s.db.ParentOf b.id a.id := by
  have hforest : s.db.RoleForest := by
    rw [hs]
    have hcall : EachCall (callAlone w) (fun _ c => c.OnRoles) s₀ calls :=
      (eachCall_mem s₀ calls).imp fun _ c hc => hcalls c hc
    exact hcall.invariant (J := fun s => s.db.RoleForest) (fun _ _ h hc => callAlone_forest h hc)
      (roleForest_of_empty hempty)
  refine ⟨fun roleId p => ?_, hforest.acyclic, fun _ _ _ h h' => h.unique h', hforest.sound.parents,
    fun roleId hrole => ?_⟩
  · have hiff : (s.db.ownsRole T roleId ∧ ValidParent s.db T (some p) (some roleId)) ↔
        s.db.ownsRole T roleId ∧ s.db.ownsRole T p ∧ ¬ s.db.AtOrAbove p roleId := by
      simp [ValidParent]
    have hexec := exec_setParent (w := w) (T := T) hforest roleId (some p)
    rw [hiff] at hexec
    by_cases hvalid : s.db.ownsRole T roleId ∧ s.db.ownsRole T p ∧ ¬ s.db.AtOrAbove p roleId
    · rw [hexec.1 hvalid]
      exact ⟨iff_of_true rfl hvalid, fun _ => rfl, fun hne => absurd rfl hne⟩
    · obtain ⟨e, he⟩ := hexec.2 hvalid
      rw [he]
      refine ⟨iff_of_false (by simp) hvalid, fun h => ?_, fun _ => rfl⟩
      cases h
  · obtain ⟨l, hexec, hrest⟩ := getRoleAncestors_of_forest hforest hrole
    exact ⟨l, exec_query_read hexec rfl, hrest⟩

end Calls

/-- A role below another one. -/
def chainOfTwo : List RepoCall :=
  [.createRole "acme" "Head" none, .createRole "acme" "Clerk" (some 1000)]

/-- The head cannot be moved below the clerk. -/
theorem set_parent_exact_chainOfTwo :
    ((RolesRepo.setParent "acme" 1000 (some 1001)).exec (handle .offline)
      (finalState (callAlone .offline) acmeAlone chainOfTwo)).1 ≠ .ok () := by
  have hcalls : ∀ c ∈ chainOfTwo, c.OnRoles := by
    intro c hc
    rcases List.mem_pair.mp hc with rfl | rfl
    · trivial
    · trivial
  have hempty : acmeAlone.db.roles.rows = [] := rfl
  have hexact := (set_parent_exact .offline hempty chainOfTwo hcalls _ rfl "acme").1 1000 1001
  have hrows : (finalState (callAlone .offline) acmeAlone chainOfTwo).db.roles.rows =
      [⟨1001, "acme", "Clerk", "clerk", some 1000⟩, ⟨1000, "acme", "Head", "head", none⟩] := by
    decide +kernel
  rw [Ne, hexact.1]
  rintro ⟨-, -, hnot⟩
  refine hnot (.single ⟨⟨1001, "acme", "Clerk", "clerk", some 1000⟩, ?_, rfl, rfl⟩)
  rw [Table.mem_def, hrows]
  exact List.mem_cons_self

end Authrs
