import Authrs.Login.Grants

/-!
# Sessions after failed lookups

The lookups of `do_create_session` swallow their failures. A session is stored with what the other
lookups have found: it is the session of a call without failures only when what the failed lookups
would have found is found by the other lookup of their pair, directly or through the groups.

## Main definitions

* `SameGrants`: two sessions carry the same roles, permissions and groups
* `FailsClosed`: a call returns an error and stores no session, or stores the session of a call
  without failures
* `Recovered`: what a failed lookup would have found is found by the other one of its pair
* `FailuresHarmless`: the failures of a call lose nothing

## Main results

* `failsClosed_iff`: the calls that fail closed
* `lostRoleIds_minted`: a session with the uid of a role and without its id
-/

namespace Authrs

open Interaction Relational AuthService

section FailsClosed

variable (w : World) (s : State) (tenantId : String) (user : User) (ip userAgent : Option String)
  (failing : Lookup → Bool) (e : SqlError)

/-- Two sessions carry the same roles, permissions and groups. -/
structure SameGrants (g g' : Grants) : Prop where
  roles : ∀ x, x ∈ g.roles ↔ x ∈ g'.roles
  roleIds : ∀ x, x ∈ g.roleIds ↔ x ∈ g'.roleIds
  permissions : ∀ x, x ∈ g.permissions ↔ x ∈ g'.permissions
  groups : ∀ x, x ∈ g.groups ↔ x ∈ g'.groups
  groupIds : ∀ x, x ∈ g.groupIds ↔ x ∈ g'.groupIds

/-- **A call fails closed**: it returns an error and stores no session, or it stores a session, and
every session that it stores carries the same as when no lookup fails. -/
def FailsClosed : Prop :=
  ((∃ failure, ((doCreateSession w tenantId user ip userAgent).exec (faulty w failing e) s).1 =
      .error failure) ∧
    ∀ p, ¬ Mints (faulty w failing e) s (doCreateSession w tenantId user ip userAgent) p) ∨
  ((∃ p, Mints (faulty w failing e) s (doCreateSession w tenantId user ip userAgent) p) ∧
    ∀ p, Mints (faulty w failing e) s (doCreateSession w tenantId user ip userAgent) p →
      ∃ q, Mints (handle w) s (doCreateSession w tenantId user ip userAgent) q ∧
        SameGrants p.grants q.grants)

/-- **What a failed lookup would have found** is found by the other lookup of its pair. -/
def Recovered {α : Type} (l l' : Lookup) (found found' : List α) : Prop :=
  (failing l = true → ∀ x ∈ found, failing l' = false ∧ x ∈ found') ∧
    (failing l' = true → ∀ x ∈ found', failing l = false ∧ x ∈ found)

/-- **The failures lose nothing.** -/
structure FailuresHarmless (db : Db) (tenantId : String) (userId : Uuid) : Prop where
  roles : Recovered failing .userRoles .groupRoleUids
    ((db.ancestors tenantId (db.directRoles tenantId userId)).map (·.uid))
    ((db.ancestors tenantId (db.groupRolesOf tenantId userId)).map (·.uid))
  roleIds : Recovered failing .userRoleIds .groupRoleIds
    ((db.ancestors tenantId (db.directRoles tenantId userId)).map (·.id))
    ((db.ancestors tenantId (db.groupRolesOf tenantId userId)).map (·.id))
  permissions : Recovered failing .userPermissions .groupPermissions
    (db.permissionNames tenantId (db.ancestors tenantId (db.directRoles tenantId userId)))
    (db.permissionNames tenantId (db.ancestors tenantId (db.groupRolesOf tenantId userId)))
  groups : failing .groupUids = true → db.groupsOf tenantId userId = []
  groupIds : failing .groupIds = true → db.groupsOf tenantId userId = []

variable {failing}

/-- A pair of lookups finds the same as without failures exactly when what is lost is recovered. -/
theorem recovered_iff {α : Type} [DecidableEq α] {l l' : Lookup} {found found' : List α} :
    Recovered failing l l' found found' ↔
      ∀ x, x ∈ dedupChain (foundBy failing l found) (foundBy failing l' found') ↔
        x ∈ dedupChain found found' := by
  simp only [mem_dedupChain]
  unfold Recovered foundBy
  cases hl : failing l with
  | false =>
    cases hl' : failing l' with
    | false => simp
    | true => simp
  | true =>
    cases hl' : failing l' with
    | false => simp
    | true => simp [forall_and]

variable (failing) in
/-- Only what the lookups find matters, not the order in which they find it. -/
theorem recovered_congr {α : Type} (l l' : Lookup) {a a' b b' : List α}
    (ha : ∀ x, x ∈ a ↔ x ∈ b) (ha' : ∀ x, x ∈ a' ↔ x ∈ b') :
    Recovered failing l l' a a' ↔ Recovered failing l l' b b' := by
  unfold Recovered
  simp only [ha, ha']

variable (failing) in
/-- A lookup without a pair finds the same exactly when it finds nothing, or does not fail. -/
theorem foundBy_iff {α : Type} (l : Lookup) (found : List α) :
    (∀ x, x ∈ foundBy failing l found ↔ x ∈ found) ↔ (failing l = true → found = []) := by
  unfold foundBy
  cases failing l with
  | false => simp
  | true => simp [List.eq_nil_iff_forall_not_mem]

/-- The lookups find the same as without failures exactly when the failures lose nothing. -/
theorem sameGrants_iff (db : Db) (userId : Uuid) :
    SameGrants (grantsFound failing db tenantId userId)
        (grantsFound (fun _ => false) db tenantId userId) ↔
      FailuresHarmless failing db tenantId userId := by
  have hsorted : ∀ (l : List String) x, x ∈ l.dedup.insertionSort (· ≤ ·) ↔ x ∈ l := by
    intro l x
    rw [List.mem_insertionSort, List.mem_dedup]
  have hdedup : ∀ (l : List Uuid) x, x ∈ l.dedup ↔ x ∈ l := fun l x => List.mem_dedup
  have hroles := (recovered_congr failing .userRoles .groupRoleUids
    (hsorted ((db.ancestors tenantId (db.directRoles tenantId userId)).map (·.uid)))
    (hsorted ((db.ancestors tenantId (db.groupRolesOf tenantId userId)).map (·.uid)))).symm.trans
      recovered_iff
  have hids := (recovered_congr failing .userRoleIds .groupRoleIds
    (hdedup ((db.ancestors tenantId (db.directRoles tenantId userId)).map (·.id)))
    (hdedup ((db.ancestors tenantId (db.groupRolesOf tenantId userId)).map (·.id)))).symm.trans
      recovered_iff
  have hgroups := foundBy_iff failing .groupUids
    (((db.groupsOf tenantId userId).map (·.uid)).insertionSort (· ≤ ·))
  have hgroupIds := foundBy_iff failing .groupIds ((db.groupsOf tenantId userId).map (·.id))
  constructor
  · intro h
    refine ⟨hroles.mpr h.roles, hids.mpr h.roleIds, recovered_iff.mpr h.permissions, ?_, ?_⟩
    · intro hfail
      have hnone := hgroups.mp h.groups hfail
      rw [← List.length_eq_zero_iff, List.length_insertionSort, List.length_map,
        List.length_eq_zero_iff] at hnone
      exact hnone
    · intro hfail
      exact List.map_eq_nil_iff.mp (hgroupIds.mp h.groupIds hfail)
  · intro h
    refine ⟨hroles.mp h.roles, hids.mp h.roleIds, recovered_iff.mp h.permissions, ?_, ?_⟩
    · refine hgroups.mpr fun hfail => ?_
      rw [h.groups hfail]
      rfl
    · refine hgroupIds.mpr fun hfail => ?_
      rw [h.groupIds hfail]
      rfl

/-- Where a session can be stored, a call fails closed exactly when the failures lose nothing. -/
theorem failsClosed_of_storable (hstorable : Storable w s tenantId user) :
    FailsClosed w s tenantId user ip userAgent failing e ↔
      FailuresHarmless failing s.db tenantId user.id := by
  rw [← sameGrants_iff]
  have hminted : ∃ p, Mints (faulty w failing e) s
      (doCreateSession w tenantId user ip userAgent) p := exists_mints.mpr hstorable
  have hcompare : ∀ p q,
      Mints (faulty w failing e) s (doCreateSession w tenantId user ip userAgent) p →
      Mints (handle w) s (doCreateSession w tenantId user ip userAgent) q →
        (SameGrants p.grants q.grants ↔ SameGrants (grantsFound failing s.db tenantId user.id)
          (grantsFound (fun _ => false) s.db tenantId user.id)) := by
    intro p q hp hq
    rw [← faulty_none w e] at hq
    rw [grants_of_mints hp, grants_of_mints hq]
  constructor
  · rintro (⟨-, hnone⟩ | ⟨⟨p, hp⟩, hsame⟩)
    · obtain ⟨p, hp⟩ := hminted
      exact absurd hp (hnone p)
    · obtain ⟨q, hq, hpq⟩ := hsame p hp
      exact (hcompare p q hp hq).mp hpq
  · intro hsame
    refine .inr ⟨hminted, fun p hp => ?_⟩
    have hwhole : ∃ q, Mints (faulty w (fun _ => false) e) s
        (doCreateSession w tenantId user ip userAgent) q := exists_mints.mpr hstorable
    rw [faulty_none] at hwhole
    obtain ⟨q, hq⟩ := hwhole
    exact ⟨q, hq, (hcompare p q hp hq).mpr hsame⟩

/-- **The calls that fail closed**: those for which no session can be stored, and those whose failures
lose nothing. -/
theorem failsClosed_iff :
    FailsClosed w s tenantId user ip userAgent failing e ↔
      (Storable w s tenantId user → FailuresHarmless failing s.db tenantId user.id) := by
  constructor
  · intro h hstorable
    exact (failsClosed_of_storable w s tenantId user ip userAgent e hstorable).mp h
  · intro h
    by_cases hstorable : Storable w s tenantId user
    · exact (failsClosed_of_storable w s tenantId user ip userAgent e hstorable).mpr (h hstorable)
    · refine .inl ⟨?_, fun p hp => hstorable (exists_mints.mp ⟨p, hp⟩)⟩
      rcases hexec : (doCreateSession w tenantId user ip userAgent).exec (faulty w failing e) s with
        ⟨failure | result, s'⟩
      · exact ⟨failure, rfl⟩
      · exact absurd (storable_of_exec hexec) hstorable

end FailsClosed

/-! ### A role without its id -/

/-- An auditor of acme. -/
def auditorOfAcme : State :=
  .ofDb { Db.empty with
    tenants := .single ⟨"acme", "Acme", "active", 0⟩
    identities := .single (IdentityRow.ofHandles ⟨0, id, fun _ => 7⟩ (some "ann@acme.example") none
      none none none none)
    users := .single ⟨1, "acme", 7, none, "active", none, 0, 0⟩
    roles := .single ⟨2, "acme", "Auditor", "auditor", none⟩
    userRoles := .single ⟨1, 2⟩ } 0

/-- The membership of the auditor. -/
def auditor : User :=
  .ofRows ⟨1, "acme", 7, none, "active", none, 0, 0⟩ (IdentityRow.ofHandles ⟨0, id, fun _ => 7⟩
    (some "ann@acme.example") none none none none none).toIdentity

/-- Only the lookup of the role ids fails. -/
def roleIdsFail (l : Lookup) : Bool := l == .userRoleIds

theorem auditor_storable : Storable .offline auditorOfAcme "acme" auditor := by
  refine ⟨3600, seconds 3600, rfl, rfl, "acme", "x", rfl, rfl, by decide, ?_, rfl, rfl⟩
  intro r hr
  cases hr

/-- **A session with the uid of a role and without its id**: policies are loaded by id, so what the
role is denied is not loaded for it. -/
theorem lostRoleIds_minted :
    ¬ FailsClosed .offline auditorOfAcme "acme" auditor none none roleIdsFail (.io "timeout") ∧
      ∃ p, Mints (faulty .offline roleIdsFail (.io "timeout")) auditorOfAcme
          (doCreateSession .offline "acme" auditor none none) p ∧
        p.roles = ["auditor"] ∧ p.roleIds = [] := by
  constructor
  · rw [failsClosed_of_storable _ _ _ _ _ _ _ auditor_storable]
    intro h
    obtain ⟨-, hlost⟩ := h.roleIds.1 rfl 2 (by decide +kernel)
    exact absurd hlost (by decide +kernel)
  · have hminted : ∃ p, Mints (faulty .offline roleIdsFail (.io "timeout")) _
        (doCreateSession .offline "acme" auditor none none) p := exists_mints.mpr auditor_storable
    obtain ⟨p, hp⟩ := hminted
    have hgrants := grants_of_mints hp
    refine ⟨p, hp, ?_, ?_⟩
    · have hroles : p.roles = _ := congrArg Grants.roles hgrants
      rw [hroles]
      decide +kernel
    · have hids : p.roleIds = _ := congrArg Grants.roleIds hgrants
      rw [hids]
      decide +kernel

end Authrs
