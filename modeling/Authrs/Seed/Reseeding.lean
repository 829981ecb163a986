import Authrs.Interaction.Condition
import Authrs.Seed.Seeder

/-!
# Seeding again

The seeder may be started several times with the same input, one after the other or side by side, and
it may be stopped in the middle. What a statement of it has achieved remains, whatever the other
seeders do. So once one of them has ended well, everything is there, and another one will change
nothing but the time at which the address of the frontend was written.

## Main definitions

* `SeedStmt.Remains`: what remains of a statement that has returned
* `Seeded`: what is there when a seeder has ended well

## Main results

* `SeedStmt.exec_keeps`: every statement of a seeder keeps what remains of the others
* `seed_keeps`: a seeder that ends well has done everything
* `exec_seed_again`: seeding what is seeded changes nothing but a time
* `run_seed_idempotent`: after one seeder has ended well, another one will, and change nothing else
-/

namespace Authrs

open Interaction Relational

/-- The texts of an input fit their columns. -/
structure SeedInput.Fits (w : World) (input : SeedInput) : Prop where
  tenantId : input.tenantId.toList.length ≤ 255
  uid : (toUid w input.roleName).toList.length ≤ 255
  email : ∀ email, input.adminEmail = some email → (storedEmail w email).toList.length ≤ 255

/-! ### Tenants -/

/-- **A tenant has a name**, cut to its column, and no other tenant has it. -/
structure TenantNamed (t : Table TenantRow.id) (id name : String) : Prop where
  snake : isLowerSnakeCase id = true
  named : ∃ stored, varcharReq 255 name = .ok stored ∧ (∃ r ∈ t, r.id = id ∧ r.name = stored) ∧
    ∀ r ∈ t, r.name = stored → r.id = id

section Statements

variable {db db' : Db} {env : SqlEnv} {now : Time} {tenantId : String}

theorem upsertTenantRow_ok {name : String} (hfits : tenantId.toList.length ≤ 255)
    (h : upsertTenantRow now db tenantId name = .ok db') :
    ∃ t, db' = { db with tenants := t } ∧ TenantNamed t tenantId name := by
  unfold upsertTenantRow at h
  simp only [bind_eq_ok] at h
  obtain ⟨id, hid, stored, hstored, h⟩ := h
  rw [varcharReq_of_le hfits] at hid
  obtain rfl := Except.ok.inj hid
  split at h
  · cases h
  · rename_i hsnake
    split at h
    · cases h
    · rename_i hfree
      -- No other tenant has the name, as the insert would have failed.
      have hother : ∀ r ∈ db.tenants, r.name = stored → r.id = tenantId := by
        intro r hr hname
        by_contra hne
        exact hfree (List.any_eq_true.mpr ⟨r, hr, by simp [hne, hname]⟩)
      have hs : isLowerSnakeCase tenantId = true := by simpa using hsnake
      split at h
      · rename_i t ht
        cases h
        refine ⟨t, rfl, hs, stored, hstored, ⟨_, (Table.mem_insert? ht).mpr (.inl rfl), rfl, rfl⟩, ?_⟩
        intro r hr hname
        rcases (Table.mem_insert? ht).mp hr with rfl | hr
        · rfl
        · exact hother r hr hname
      · rename_i hnone
        cases h
        obtain ⟨old, hold, hkey⟩ := Table.insert?_eq_none.mp hnone
        have hrow : old.withName stored ∈ db.tenants.update (fun r => r.id = tenantId)
            (.withName stored) (TenantRow.withName_id stored) :=
          Table.mem_update_of_pos hold (by simpa using hkey)
        refine ⟨_, rfl, hs, stored, hstored, ⟨_, hrow, hkey, rfl⟩, ?_⟩
        intro r hr hname
        change r ∈ db.tenants.update (fun r => r.id = tenantId) (.withName stored)
          (TenantRow.withName_id stored) at hr
        obtain ⟨r', hr', rfl⟩ := Table.mem_update.mp hr
        by_cases hsame : r'.id = tenantId
        · rw [if_pos (by simpa using hsame)]
          exact hsame
        · rw [if_neg (by simpa using hsame)] at hname ⊢
          exact hother r' hr' hname

/-- A tenant that has the name keeps it. -/
theorem upsertTenantRow_again {name : String} (hfits : tenantId.toList.length ≤ 255)
    (h : TenantNamed db.tenants tenantId name) : upsertTenantRow now db tenantId name = .ok db := by
  obtain ⟨hsnake, stored, hstored, ⟨r, hr, hid, hname⟩, honly⟩ := h
  unfold upsertTenantRow
  rw [varcharReq_of_le hfits, hstored]
  have hfree : (db.tenants.rows.any fun r => r.id ≠ tenantId && r.name = stored) = false := by
    rw [Bool.eq_false_iff, Ne, List.any_eq_true]
    rintro ⟨r, hr, hboth⟩
    simp only [Bool.and_eq_true, decide_eq_true_eq] at hboth
    exact hboth.1 (honly r hr hboth.2)
  have hnone : db.tenants.insert? ⟨tenantId, stored, "active", now⟩ = none :=
    Table.insert?_eq_none.mpr ⟨r, hr, hid⟩
  have hsame : db.tenants.update (fun r => r.id = tenantId) (.withName stored)
      (TenantRow.withName_id stored) =
      db.tenants := by
    refine Table.update_eq_self fun r' hr' hid' => ?_
    have hkey : r'.id = tenantId := by simpa using hid'
    obtain rfl : r' = r := Table.eq_of_key_eq hr' hr (hkey.trans hid.symm)
    subst hname
    rfl
  show (if !isLowerSnakeCase tenantId then _ else _) = _
  rw [hsnake, hfree, hnone, hsame]
  rfl

/-! ### The frontend -/

/-- The row of the frontend's address, as of a time. -/
def baseUrlRow (tenantId value : String) (updatedAt : Time) : KvStoreRow :=
  ⟨tenantId, "frontend_config", "base_url", value, false, updatedAt⟩

/-- **The address of the frontend is stored.** -/
def Db.HasBaseUrl (db : Db) (tenantId value : String) : Prop :=
  ∃ updatedAt, db.kv tenantId "frontend_config" "base_url" = some (baseUrlRow tenantId value updatedAt)

/-- `SET updated_at = now()`. -/
def KvStoreRow.touchedAt (now : Time) (r : KvStoreRow) : KvStoreRow := { r with updatedAt := now }

theorem KvStoreRow.touchedAt_key (now : Time) (r : KvStoreRow) :
    ((r.touchedAt now).tenantId, (r.touchedAt now).groupKey, (r.touchedAt now).key) =
      (r.tenantId, r.groupKey, r.key) := rfl

/-- The row of the frontend's address has been written again. -/
def Db.touchBaseUrl (db : Db) (tenantId : String) (now : Time) : Db :=
  let isBaseUrl := KvStoreRow.keyIs tenantId "frontend_config" "base_url"
  { db with kvStore := db.kvStore.update isBaseUrl (.touchedAt now) (KvStoreRow.touchedAt_key now) }

theorem Db.touchBaseUrl_kvStore (db : Db) (tenantId : String) (now : Time) :
    (db.touchBaseUrl tenantId now).kvStore =
      db.kvStore.update (KvStoreRow.keyIs tenantId "frontend_config" "base_url") (.touchedAt now)
        (KvStoreRow.touchedAt_key now) := rfl

theorem Db.HasBaseUrl.touched {db : Db} {tenantId value : String} (h : db.HasBaseUrl tenantId value)
    (now : Time) : (db.touchBaseUrl tenantId now).HasBaseUrl tenantId value := by
  obtain ⟨updatedAt, h⟩ := h
  obtain ⟨hr, hkey⟩ := Db.kv_eq_some.mp h
  refine ⟨now, Db.kv_eq_some.mpr ⟨?_, hkey⟩⟩
  rw [Db.touchBaseUrl_kvStore]
  exact Table.mem_update.mpr ⟨_, hr, if_pos (KvStoreRow.keyIs_iff.mpr hkey)⟩

theorem varcharReq_frontendConfig : varcharReq 255 "frontend_config" = .ok "frontend_config" :=
  varcharReq_of_le (by decide)

theorem varcharReq_baseUrl : varcharReq 255 "base_url" = .ok "base_url" := varcharReq_of_le (by decide)

theorem upsertBaseUrl_ok {value : String} (hfits : tenantId.toList.length ≤ 255)
    (h : upsertKv now db tenantId "frontend_config" "base_url" value false = .ok db') :
    ∃ t, db' = { db with kvStore := t } ∧ db'.HasBaseUrl tenantId value := by
  have hframe : ∃ t, db' = { db with kvStore := t } := by
    unfold upsertKv at h
    simp only [bind_eq_ok] at h
    obtain ⟨_, -, _, -, _, -, h⟩ := h
    repeat' split at h
    all_goals cases h
    all_goals exact ⟨_, rfl⟩
  obtain ⟨t, rfl⟩ := hframe
  refine ⟨t, rfl, ?_⟩
  obtain ⟨t', g, k, ht, hg, hk, hrow⟩ := upsertKv_ok h
  rw [varcharReq_of_le hfits] at ht
  rw [varcharReq_frontendConfig] at hg
  rw [varcharReq_baseUrl] at hk
  obtain rfl := Except.ok.inj ht
  obtain rfl := Except.ok.inj hg
  obtain rfl := Except.ok.inj hk
  refine ⟨now, ?_⟩
  rw [hrow, if_pos rfl]
  rfl

/-- An address that is stored is only written again. -/
theorem upsertBaseUrl_again {value : String} (hfits : tenantId.toList.length ≤ 255)
    (h : db.HasBaseUrl tenantId value) :
    upsertKv now db tenantId "frontend_config" "base_url" value false =
      .ok (db.touchBaseUrl tenantId now) := by
  obtain ⟨updatedAt, h⟩ := h
  obtain ⟨hr, hkey⟩ := Db.kv_eq_some.mp h
  have hnone : db.kvStore.insert? ⟨tenantId, "frontend_config", "base_url", value, false, now⟩ = none :=
    Table.insert?_eq_none.mpr ⟨_, hr, rfl⟩
  have hsame : db.kvStore.update (KvStoreRow.keyIs tenantId "frontend_config" "base_url")
      (.withValue now value false) (KvStoreRow.withValue_key now value false) =
      (db.touchBaseUrl tenantId now).kvStore := by
    rw [Db.touchBaseUrl_kvStore]
    refine Table.update_congr fun r' hr' hmatch => ?_
    obtain rfl := Table.eq_of_key_eq hr' hr ((KvStoreRow.keyIs_iff.mp hmatch).trans hkey.symm)
    rfl
  unfold upsertKv
  rw [varcharReq_of_le hfits, varcharReq_frontendConfig, varcharReq_baseUrl]
  dsimp only [bind, Except.bind]
  rw [hnone, hsame]
  rfl

/-! ### The role -/

theorem Db.hasRoleUid_iff {uid : String} :
    db.hasRoleUid tenantId uid = true ↔ ∃ r ∈ db.roles, r.tenantId = tenantId ∧ r.uid = uid := by
  simp [Db.hasRoleUid, List.any_eq_true, Table.mem_def]

theorem insertRoleOnce_again {name uid : String} (h : db.hasRoleUid tenantId uid = true) :
    insertRoleOnce env db tenantId name uid = .ok db := if_pos h

theorem insertRoleOnce_ok {name uid : String} (hfits : tenantId.toList.length ≤ 255)
    (huid : uid.toList.length ≤ 255) (h : insertRoleOnce env db tenantId name uid = .ok db') :
    ∃ t, db' = { db with roles := t } ∧ db'.hasRoleUid tenantId uid = true := by
  unfold insertRoleOnce at h
  split at h
  · rename_i hhas
    cases h
    exact ⟨db.roles, rfl, hhas⟩
  · unfold insertRole at h
    rw [varcharReq_of_le hfits, varcharReq_of_le huid] at h
    cases hname : varcharReq 255 name with
    | error e =>
      rw [hname] at h
      cases h
    | ok stored =>
      rw [hname] at h
      simp only [bind, Except.bind] at h
      repeat' split at h
      all_goals try cases h
      rename_i t ht _ _ _
      exact ⟨t, rfl, Db.hasRoleUid_iff.mpr ⟨_, (Table.mem_insert? ht).mpr (.inl rfl), rfl, rfl⟩⟩

/-! ### The identity -/

/-- **A new identity has an address of its own**, and is found by it. -/
theorem createIdentity_ok {email firstName lastName passwordHash : String} {i : Identity}
    (hfits : email.toList.length ≤ 255)
    (h : insertIdentity env db (some email) none none (some firstName) (some lastName)
      (some passwordHash) = .ok (i, db')) :
    ∃ t, db' = { db with identities := t } ∧ db.identityByEmail env.lower email = none ∧
      db'.identityByEmail env.lower email = some i.id := by
  have hemail : varcharOpt 255 (some email) = .ok (some email) := by
    simp only [varcharOpt, varchar_of_le hfits]
  have hfree : db.identityByEmail env.lower email = none := by
    unfold insertIdentity at h
    rw [hemail] at h
    simp only [bind_eq_ok] at h
    obtain ⟨_, ⟨⟩, _, -, _, -, _, -, _, -, h⟩ := h
    split at h
    · cases h
    · split at h
      · cases h
      · split at h
        · cases h
        · rename_i hany
          rw [Db.identityByEmail, Option.map_eq_none_iff, Table.selectOne_eq_none]
          intro r hr
          rw [Bool.eq_false_iff]
          exact fun hsame => hany (List.any_eq_true.mpr ⟨r, hr, hsame⟩)
  obtain ⟨row, t, hstored, hid, -, rfl, hins, rfl⟩ := insertIdentity_ok h
  refine ⟨t, rfl, hfree, ?_⟩
  rw [hemail] at hstored
  have hrow : row.email = some email := (Except.ok.inj hstored).symm
  unfold Db.identityByEmail Table.selectOne
  show (t.rows.find? _).map _ = _
  rw [Table.rows_of_insert? hins, List.find?_cons_of_pos (by simp [hrow])]
  rfl

/-! ### The membership -/

theorem Db.membershipIdOf_isSome {identityId : Uuid}
    (h : db.users.rows.any (membershipTaken tenantId identityId) = true) :
    ∃ userId, db.membershipIdOf tenantId identityId = some userId := by
  obtain ⟨u, hu, htaken⟩ := List.any_eq_true.mp h
  obtain ⟨x, hx⟩ := Table.selectOne_isSome (p := membershipTaken tenantId identityId) hu htaken
  exact ⟨x.id, congrArg (Option.map MembershipRow.id) hx⟩

theorem insertMembershipOnce_again {id identityId : Uuid} (hfits : tenantId.toList.length ≤ 255)
    (h : db.users.rows.any (membershipTaken tenantId identityId) = true) :
    insertMembershipOnce db id tenantId identityId now = .ok db := by
  unfold insertMembershipOnce
  rw [varcharReq_of_le hfits]
  exact if_pos h

/-- **A membership that is there stays the one that is found.** -/
theorem insertMembershipOnce_ok {id identityId : Uuid} (hfits : tenantId.toList.length ≤ 255)
    (h : insertMembershipOnce db id tenantId identityId now = .ok db') :
    ∃ t, db' = { db with users := t } ∧
      db'.users.rows.any (membershipTaken tenantId identityId) = true ∧
      ∀ T i, db.users.rows.any (membershipTaken T i) = true →
        db'.users.rows.any (membershipTaken T i) = true ∧
          db'.membershipIdOf T i = db.membershipIdOf T i := by
  unfold insertMembershipOnce at h
  rw [varcharReq_of_le hfits] at h
  simp only [bind, Except.bind] at h
  split at h
  · rename_i htaken
    cases h
    exact ⟨db.users, rfl, htaken, fun T i hi => ⟨hi, rfl⟩⟩
  · rename_i hfree
    cases hinsert : insertMembership db id tenantId identityId none now with
    | error e =>
      rw [hinsert] at h
      cases h
    | ok x =>
      rw [hinsert] at h
      obtain ⟨n, db₁⟩ := x
      cases h
      obtain ⟨row, t, -, hidentity, htenant, -, hins, rfl⟩ := insertMembership_ok hinsert
      rw [varcharReq_of_le hfits] at htenant
      obtain rfl := Except.ok.inj htenant
      subst hidentity
      refine ⟨t, rfl, ?_, fun T i hi => ?_⟩
      · show t.rows.any _ = true
        rw [Table.rows_of_insert? hins]
        simp [membershipTaken]
      · -- The new row is not the one that is looked for.
        have hother : membershipTaken T i row = false := by
          rw [Bool.eq_false_iff]
          intro hsame
          simp only [membershipTaken, Bool.and_eq_true, decide_eq_true_eq] at hsame
          obtain ⟨rfl, rfl⟩ := hsame
          exact hfree hi
        constructor
        · show t.rows.any _ = true
          rw [Table.rows_of_insert? hins, List.any_cons, hother, hi]
          rfl
        · unfold Db.membershipIdOf Table.selectOne
          show (t.rows.find? _).map _ = _
          rw [Table.rows_of_insert? hins, List.find?_cons_of_neg (by simp [hother])]

/-! ### The assignment -/

theorem assignRoleOnce_again {userId roleId : Uuid}
    (h : (⟨userId, roleId⟩ : UserRoleRow) ∈ db.userRoles) :
    assignRoleOnce db userId roleId = .ok db := by
  have hnone : db.userRoles.insert? ⟨userId, roleId⟩ = none := Table.insert?_eq_none.mpr ⟨_, h, rfl⟩
  unfold assignRoleOnce
  rw [hnone]

theorem assignRoleOnce_ok {userId roleId : Uuid} (h : assignRoleOnce db userId roleId = .ok db') :
    ∃ t, db' = { db with userRoles := t } ∧ (⟨userId, roleId⟩ : UserRoleRow) ∈ t ∧
      ∀ x ∈ db.userRoles, x ∈ t := by
  unfold assignRoleOnce at h
  split at h
  · rename_i hnone
    cases h
    obtain ⟨⟨u, r⟩, hold, hkey⟩ := Table.insert?_eq_none.mp hnone
    cases hkey
    exact ⟨db.userRoles, rfl, hold, fun x hx => hx⟩
  · rename_i t ht
    split at h
    · cases h
    · split at h
      · cases h
      · cases h
        exact ⟨t, rfl, (Table.mem_insert? ht).mpr (.inl rfl), fun x hx =>
          (Table.mem_insert? ht).mpr (.inr hx)⟩

end Statements

/-! ### What remains -/

/-- **What remains of a statement that has returned.** -/
def SeedStmt.Remains (lower : String → String) (uid : String) (db : Db) : (q : SeedStmt) → q.Rows → Prop
  | .upsertTenant id name, _ => TenantNamed db.tenants id name
  | .upsertBaseUrl tenantId value, _ => db.HasBaseUrl tenantId value
  | .insertRole tenantId _ uid', _ => db.hasRoleUid tenantId uid' = true
  | .findIdentity email, found => ∀ id, found = some id → db.identityByEmail lower email = some id
  | .createIdentity email .., id => db.identityByEmail lower email = some id
  | .insertMembership _ tenantId identityId _, _ =>
    db.users.rows.any (membershipTaken tenantId identityId) = true
  | .findMembership tenantId identityId, found =>
    db.users.rows.any (membershipTaken tenantId identityId) = true ∧
      db.membershipIdOf tenantId identityId = found
  | .findRole tenantId name, id =>
    db.hasRoleUid tenantId uid = true ∧ db.roleIdNamed tenantId name = some id
  | .assignRole userId roleId, _ => (⟨userId, roleId⟩ : UserRoleRow) ∈ db.userRoles

section Seeders

variable (w : World) (toJson : String → Except String String) (input : SeedInput)

/-- **A statement of a seeder** speaks of its input. -/
inductive SeedInput.Sends : SeedStmt → Prop
  | tenant : Sends (.upsertTenant input.tenantId input.tenantName)
  | baseUrl {url value : String} : input.appUrl = some url → toJson url = .ok value →
    Sends (.upsertBaseUrl input.tenantId value)
  | role : Sends (.insertRole input.tenantId input.roleName (toUid w input.roleName))
  | findIdentity {email : String} : input.adminEmail = some email →
    Sends (.findIdentity (storedEmail w email))
  | createIdentity {email firstName lastName passwordHash : String} : input.adminEmail = some email →
    Sends (.createIdentity (storedEmail w email) firstName lastName passwordHash)
  | insertMembership {id identityId : Uuid} {now : Time} :
    Sends (.insertMembership id input.tenantId identityId now)
  | findMembership {identityId : Uuid} : Sends (.findMembership input.tenantId identityId)
  | findRole : Sends (.findRole input.tenantId input.roleName)
  | assignRole {userId roleId : Uuid} : Sends (.assignRole userId roleId)

variable {w toJson input}

theorem unitRows_eq_ok {x : Except SqlError Db} {u : Unit} {db : Db} :
    unitRows x = .ok (u, db) ↔ x = .ok db := by
  cases x with
  | error e => exact ⟨nofun, nofun⟩
  | ok a =>
    constructor
    · intro h
      cases h
      rfl
    · intro h
      cases h
      rfl

theorem createIdentity_exec {env : SqlEnv} {db db' : Db} {email firstName lastName passwordHash : String}
    {id : Uuid} (h : (SeedStmt.createIdentity email firstName lastName passwordHash).exec env db =
      .ok (id, db')) :
    ∃ i, i.id = id ∧ insertIdentity env db (some email) none none (some firstName) (some lastName)
      (some passwordHash) = .ok (i, db') := by
  simp only [SeedStmt.exec] at h
  cases hinsert : insertIdentity env db (some email) none none (some firstName) (some lastName)
      (some passwordHash) with
  | error e =>
    rw [hinsert] at h
    cases h
  | ok x =>
    rw [hinsert] at h
    obtain ⟨i, db₁⟩ := x
    cases h
    exact ⟨i, rfl, rfl⟩

/-- **Every statement of a seeder keeps what remains of the others.** -/
theorem SeedStmt.exec_keeps (hfits : input.Fits w) {q q' : SeedStmt} {r : q.Rows} {r' : q'.Rows}
    {env : SqlEnv} {db db' : Db} (hlower : env.lower = w.lower) (hq : input.Sends w toJson q)
    (hexec : q.exec env db = .ok (r, db')) (hq' : input.Sends w toJson q')
    (hremains : q'.Remains w.lower (toUid w input.roleName) db r') :
    q'.Remains w.lower (toUid w input.roleName) db' r' := by
  cases hq with
  | tenant =>
    obtain ⟨t, rfl, hnamed⟩ := upsertTenantRow_ok hfits.tenantId (unitRows_eq_ok.mp hexec)
    cases hq' with
    | tenant => exact hnamed
    | _ => exact hremains
  | baseUrl hurl hvalue =>
    obtain ⟨t, hdb, hstored⟩ := upsertBaseUrl_ok hfits.tenantId (unitRows_eq_ok.mp hexec)
    cases hq' with
    | baseUrl hurl' hvalue' =>
      obtain rfl := Option.some.inj (hurl.symm.trans hurl')
      obtain rfl := Except.ok.inj (hvalue.symm.trans hvalue')
      exact hstored
    | _ =>
      rw [hdb]
      exact hremains
  | role =>
    obtain ⟨t, hdb, hhas⟩ := insertRoleOnce_ok hfits.tenantId hfits.uid (unitRows_eq_ok.mp hexec)
    cases hq' with
    | role => exact hhas
    | findRole =>
      -- The role was there, so nothing is inserted.
      have hsame := (insertRoleOnce_again hremains.1).symm.trans (unitRows_eq_ok.mp hexec)
      rw [← Except.ok.inj hsame]
      exact hremains
    | _ =>
      rw [hdb]
      exact hremains
  | findIdentity =>
    cases hexec
    exact hremains
  | createIdentity hemail =>
    rename_i email firstName lastName passwordHash
    obtain ⟨i, rfl, hinsert⟩ := createIdentity_exec hexec
    obtain ⟨t, hdb, hnone, hfound⟩ := createIdentity_ok (hfits.email email hemail) hinsert
    rw [hlower] at hnone hfound
    cases hq' with
    | findIdentity hemail' =>
      obtain rfl := Option.some.inj (hemail.symm.trans hemail')
      intro id hid
      exact absurd ((hremains id hid).symm.trans hnone) (by simp)
    | createIdentity hemail' =>
      obtain rfl := Option.some.inj (hemail.symm.trans hemail')
      exact absurd (hremains.symm.trans hnone) (by simp)
    | _ =>
      rw [hdb]
      exact hremains
  | insertMembership =>
    obtain ⟨t, hdb, -, hkept⟩ := insertMembershipOnce_ok hfits.tenantId (unitRows_eq_ok.mp hexec)
    cases hq' with
    | insertMembership => exact (hkept _ _ hremains).1
    | findMembership =>
      obtain ⟨htaken, hfound⟩ := hremains
      exact ⟨(hkept _ _ htaken).1, (hkept _ _ htaken).2.trans hfound⟩
    | _ =>
      rw [hdb]
      exact hremains
  | findMembership =>
    cases hexec
    exact hremains
  | findRole =>
    simp only [SeedStmt.exec] at hexec
    split at hexec
    · cases hexec
      exact hremains
    · cases hexec
  | assignRole =>
    obtain ⟨t, rfl, -, hkept⟩ := assignRoleOnce_ok (unitRows_eq_ok.mp hexec)
    cases hq' with
    | assignRole => exact hkept _ hremains
    | _ => exact hremains

/-- **A statement achieves what remains of it**, if the row that it looks for is there. -/
theorem SeedStmt.exec_achieves (hfits : input.Fits w) {q : SeedStmt} {r : q.Rows} {env : SqlEnv}
    {db db' : Db} (hlower : env.lower = w.lower) (hq : input.Sends w toJson q)
    (hmember : ∀ T i, q = .findMembership T i → db.users.rows.any (membershipTaken T i) = true)
    (hrole : ∀ T n, q = .findRole T n → db.hasRoleUid T (toUid w input.roleName) = true)
    (hexec : q.exec env db = .ok (r, db')) :
    q.Remains w.lower (toUid w input.roleName) db' r := by
  cases hq with
  | tenant =>
    obtain ⟨t, rfl, hnamed⟩ := upsertTenantRow_ok hfits.tenantId (unitRows_eq_ok.mp hexec)
    exact hnamed
  | baseUrl =>
    obtain ⟨t, rfl, hstored⟩ := upsertBaseUrl_ok hfits.tenantId (unitRows_eq_ok.mp hexec)
    exact hstored
  | role =>
    obtain ⟨t, rfl, hhas⟩ := insertRoleOnce_ok hfits.tenantId hfits.uid (unitRows_eq_ok.mp hexec)
    exact hhas
  -- A look-up writes nothing: what it has found remains.
  | findIdentity =>
    cases hexec
    intro id hid
    rw [← hlower]
    exact hid
  | createIdentity hemail =>
    obtain ⟨i, rfl, hinsert⟩ := createIdentity_exec hexec
    obtain ⟨t, rfl, -, hfound⟩ := createIdentity_ok (hfits.email _ hemail) hinsert
    rw [← hlower]
    exact hfound
  | insertMembership =>
    obtain ⟨t, rfl, htaken, -⟩ := insertMembershipOnce_ok hfits.tenantId (unitRows_eq_ok.mp hexec)
    exact htaken
  | findMembership =>
    cases hexec
    exact ⟨hmember _ _ rfl, rfl⟩
  | findRole =>
    simp only [SeedStmt.exec] at hexec
    split at hexec
    · rename_i hnamed
      cases hexec
      exact ⟨hrole _ _ rfl, hnamed⟩
    · cases hexec
  | assignRole =>
    obtain ⟨t, rfl, hassigned, -⟩ := assignRoleOnce_ok (unitRows_eq_ok.mp hexec)
    exact hassigned

/-! ### What a seeder does -/

/-- A statement has returned. -/
def seedDid (q : SeedStmt) (r : q.Rows) : Event seedSteps := ⟨SeedRequest.sql q, .ok r⟩

/-- What has been done before a row is looked for. -/
def SeedStmt.Prepared (uid : String) (h : List (Event seedSteps)) : SeedStmt → Prop
  | .findMembership tenantId identityId =>
    ∃ id now, seedDid (.insertMembership id tenantId identityId now) () ∈ h
  | .findRole tenantId name => seedDid (.insertRole tenantId name uid) () ∈ h
  | _ => True

variable (w toJson input) in
/-- The statements of a seeder speak of its input, and come in their order. -/
def seedContract : Contract seedSteps :=
  .ofGuarantee fun h e => ∀ q, e.request = .sql q →
    input.Sends w toJson q ∧ q.Prepared (toUid w input.roleName) h

variable (w input) in
/-- **What has been done for an administrator.** -/
inductive AdminDone (h : List (Event seedSteps)) (email : String) : Prop
  | lost {id : Uuid} : seedDid (.findMembership input.tenantId id) none ∈ h → AdminDone h email
  | assigned {id userId roleId : Uuid} : SeedInput.storedEmail w email ≠ "" →
    (seedDid (.findIdentity (SeedInput.storedEmail w email)) (some id) ∈ h ∨
      ∃ firstName lastName passwordHash, seedDid (.createIdentity (SeedInput.storedEmail w email)
        firstName lastName passwordHash) id ∈ h) →
    seedDid (.findMembership input.tenantId id) (some userId) ∈ h →
    seedDid (.findRole input.tenantId input.roleName) roleId ∈ h →
    seedDid (.assignRole userId roleId) () ∈ h → AdminDone h email

variable (w toJson input) in
/-- **What a seeder has done when it has ended well.** -/
structure SeedDone (h : List (Event seedSteps)) : Prop where
  tenant : seedDid (.upsertTenant input.tenantId input.tenantName) () ∈ h
  url : ∀ url, input.appUrl = some url → ∃ value, toJson url = .ok value ∧
    seedDid (.upsertBaseUrl input.tenantId value) () ∈ h
  role : seedDid (.insertRole input.tenantId input.roleName (toUid w input.roleName)) () ∈ h
  admin : ∀ email password, input.adminEmail = some email → input.adminPassword = some password →
    AdminDone w input h email

section Steps

open Program

variable {h : List (Event seedSteps)}

theorem keeps_seedQuery {q : SeedStmt} (hq : input.Sends w toJson q)
    (hprepared : q.Prepared (toUid w input.roleName) h) :
    (seedQuery q).Keeps (seedContract w toJson input) (OnOk fun r h' => h' = seedDid q r :: h) h := by
  intro reply _
  refine ⟨fun q' hq' => ?_, ?_⟩
  · cases hq'
    exact ⟨hq, hprepared⟩
  · cases reply with
    | error e => trivial
    | ok r => rfl

/-- A request that is no statement. -/
theorem keeps_noStatement {q : SeedRequest} (hq : ∀ q', q ≠ .sql q') :
    (Program.request (I := seedSteps) q : Seeding (SeedReply q)).Keeps (seedContract w toJson input)
      (OnOk fun _ _ => True) h :=
  fun _ _ => ⟨fun q' hq' => absurd hq' (hq q'), trivial⟩

theorem seedHash_keeps (password : String) :
    (seedHash password).Keeps (seedContract w toJson input) (OnOk fun _ _ => True) h := by
  refine (keeps_noStatement fun _ hq => by cases hq).bind_ok fun hashed h₁ _ _ => ?_
  cases hashed <;> trivial

theorem seedIdentity_keeps {email firstName lastName passwordHash : String}
    (hemail : input.adminEmail = some email) :
    (seedIdentity (SeedInput.storedEmail w email) firstName lastName passwordHash).Keeps
      (seedContract w toJson input)
      (OnOk fun id h' => seedDid (.findIdentity (SeedInput.storedEmail w email)) (some id) ∈ h' ∨
        ∃ firstName lastName passwordHash, seedDid (.createIdentity (SeedInput.storedEmail w email)
          firstName lastName passwordHash) id ∈ h') h := by
  refine (keeps_seedQuery (.findIdentity hemail) trivial).bind_ok ?_
  rintro (_ | id) h₁ - rfl
  · refine (keeps_seedQuery (.createIdentity hemail) trivial).weaken_ok ?_
    rintro id h₂ - rfl
    exact .inr ⟨_, _, _, List.mem_cons_self⟩
  · exact .inl List.mem_cons_self

theorem seedAdmin_keeps {email password : String} (hemail : input.adminEmail = some email)
    (hrole : seedDid (.insertRole input.tenantId input.roleName (toUid w input.roleName)) () ∈ h) :
    (seedAdmin w input email password).Keeps (seedContract w toJson input)
      (OnOk fun _ h' => AdminDone w input h' email) h := by
  unfold seedAdmin
  dsimp only
  split
  · trivial
  · rename_i hne
    refine (seedHash_keeps password).bind_ok fun hashed h₁ hsub₁ _ => ?_
    refine (keeps_noStatement fun _ hq => by cases hq).bind_ok fun now h₂ hsub₂ _ => ?_
    refine (seedIdentity_keeps hemail).bind_ok fun identityId h₃ hsub₃ hidentity => ?_
    refine (keeps_noStatement fun _ hq => by cases hq).bind_ok fun userId h₄ hsub₄ _ => ?_
    refine (keeps_seedQuery .insertMembership trivial).bind_ok ?_
    rintro ⟨⟩ h₅ - rfl
    refine (keeps_seedQuery .findMembership ⟨userId, now, List.mem_cons_self⟩).bind_ok ?_
    rintro (_ | uid) h₆ - rfl
    · exact .lost List.mem_cons_self
    · have hsub := List.Subset.trans (List.Subset.trans hsub₁ hsub₂) (List.Subset.trans hsub₃ hsub₄)
      refine (keeps_seedQuery .findRole
        (List.mem_cons_of_mem _ (List.mem_cons_of_mem _ (hsub hrole)))).bind_ok ?_
      rintro roleId h₇ - rfl
      refine (keeps_seedQuery .assignRole trivial).weaken_ok ?_
      rintro ⟨⟩ h₈ - rfl
      have hlater : ∀ a b c d : Event seedSteps, ∀ e ∈ h₃, e ∈ a :: b :: c :: d :: h₄ := by
        intro a b c d e he
        exact List.mem_append_right [a, b, c, d] (hsub₄ he)
      refine .assigned hne ?_ (List.mem_cons_of_mem _ (List.mem_cons_of_mem _ List.mem_cons_self))
        (List.mem_cons_of_mem _ List.mem_cons_self) List.mem_cons_self
      rcases hidentity with hfound | ⟨firstName, lastName, passwordHash, hcreated⟩
      · exact .inl (hlater _ _ _ _ _ hfound)
      · exact .inr ⟨firstName, lastName, passwordHash, hlater _ _ _ _ _ hcreated⟩

/-- **A seeder that ends well has done everything.** -/
theorem seed_keeps : (seed w toJson input).Keeps (seedContract w toJson input)
    (OnOk fun _ h' => SeedDone w toJson input h') [] := by
  refine (keeps_seedQuery .tenant trivial).bind_ok ?_
  rintro - h₁ - rfl
  have hurl : (seedAppUrl toJson input).Keeps (seedContract w toJson input)
      (OnOk fun _ h' => ∀ url, input.appUrl = some url → ∃ value, toJson url = .ok value ∧
        seedDid (.upsertBaseUrl input.tenantId value) () ∈ h')
      [seedDid (.upsertTenant input.tenantId input.tenantName) ()] := by
    unfold seedAppUrl
    cases happ : input.appUrl with
    | none => exact nofun
    | some url =>
      refine (keeps_ofExcept_ok _).bind_ok ?_
      rintro value h₂ - ⟨hvalue, rfl⟩
      refine (keeps_seedQuery (.baseUrl happ hvalue) trivial).weaken_ok ?_
      rintro - h₃ - rfl _ ⟨⟩
      exact ⟨value, hvalue, List.mem_cons_self⟩
  refine hurl.bind_ok ?_
  rintro - h₂ hsub₂ hurl
  refine (keeps_seedQuery .role trivial).bind_ok ?_
  rintro ⟨⟩ h₃ - hh₃
  -- Without both an address and a password nothing is done for an admin.
  have hstart : ∀ h, h₃ ⊆ h → (∀ email password, input.adminEmail = some email →
      input.adminPassword = some password → AdminDone w input h email) → SeedDone w toJson input h := by
    intro h hsub hadmin
    rw [hh₃] at hsub
    have hsub' : h₂ ⊆ h := List.Subset.trans (List.subset_cons_self _ _) hsub
    refine ⟨hsub' (hsub₂ List.mem_cons_self), fun url happ => ?_, hsub List.mem_cons_self, hadmin⟩
    obtain ⟨value, hvalue, hdid⟩ := hurl url happ
    exact ⟨value, hvalue, hsub' hdid⟩
  cases hemail : input.adminEmail with
  | none => exact hstart _ (List.Subset.refl _) fun email _ h _ => by cases hemail.symm.trans h
  | some email =>
    cases hpassword : input.adminPassword with
    | none => exact hstart _ (List.Subset.refl _) fun _ password _ h => by cases hpassword.symm.trans h
    | some password =>
      refine (seedAdmin_keeps hemail (hh₃ ▸ List.mem_cons_self)).weaken_ok ?_
      rintro - h₄ hsub₄ hdone
      refine hstart h₄ hsub₄ fun email' password' hemail' _ => ?_
      obtain rfl := Option.some.inj (hemail.symm.trans hemail')
      exact hdone

end Steps

/-! ### Seeding what is seeded -/

variable (w toJson input) in
/-- **Everything is there**: the tenant with its name, the address of its frontend, the role, and an
administrator with a membership of the tenant and the role. -/
structure Seeded (db : Db) : Prop where
  tenant : TenantNamed db.tenants input.tenantId input.tenantName
  url : ∀ url, input.appUrl = some url → ∃ value, toJson url = .ok value ∧
    db.HasBaseUrl input.tenantId value
  role : db.hasRoleUid input.tenantId (toUid w input.roleName) = true
  admin : ∀ email password, input.adminEmail = some email → input.adminPassword = some password →
    SeedInput.storedEmail w email ≠ "" ∧ ∃ id userId roleId,
      db.identityByEmail w.lower (SeedInput.storedEmail w email) = some id ∧
      db.users.rows.any (membershipTaken input.tenantId id) = true ∧
      db.membershipIdOf input.tenantId id = some userId ∧
      db.roleIdNamed input.tenantId input.roleName = some roleId ∧
      (⟨userId, roleId⟩ : UserRoleRow) ∈ db.userRoles

variable (w) in
/-- A program succeeds on some tables and leaves them alone, whatever the time and the draws. -/
def LeavesAlone {α : Type} (db : Db) (p : Seeding α) (N : α → Prop) : Prop :=
  ∀ s : State, s.db = db → ∃ a n, N a ∧ p.exec (handleSeed w) s = (.ok a, { s with draws := n })

namespace LeavesAlone

variable {db : Db} {α β : Type} {N : α → Prop} {N' : β → Prop}

theorem pure {a : α} (h : N a) : LeavesAlone w db (Pure.pure a : Seeding α) N :=
  fun s _ => ⟨a, s.draws, h, rfl⟩

theorem bind {p : Seeding α} {f : α → Seeding β} (hp : LeavesAlone w db p N)
    (hf : ∀ a, N a → LeavesAlone w db (f a) N') : LeavesAlone w db (p >>= f) N' := by
  intro s hs
  obtain ⟨a, n, ha, hexec⟩ := hp s hs
  obtain ⟨b, n', hb, hexec'⟩ := hf a ha { s with draws := n } hs
  refine ⟨b, n', hb, ?_⟩
  rw [Program.bind_eq, Program.exec_bind_ok _ hexec, hexec']

theorem query {q : SeedStmt} {r : q.Rows}
    (h : ∀ env : SqlEnv, env.lower = w.lower → q.exec env db = .ok (r, db)) :
    LeavesAlone w db (seedQuery q) (· = r) := by
  intro s hs
  subst hs
  have hexec := h (s.sqlEnv w) rfl
  have hhandle : handleSeed w (.sql q) s = (.ok r, s.drawn) := by
    simp only [handleSeed]
    rw [hexec]
    rfl
  refine ⟨r, s.draws + 1, rfl, ?_⟩
  show (Program.ofExcept ((handleSeed w (.sql q) s).1.mapError SqlError.display)).exec (handleSeed w)
    (handleSeed w (.sql q) s).2 = _
  rw [hhandle]
  rfl

/-- A request that is no statement. -/
theorem request {q : SeedRequest} (hq : ∀ q', q ≠ .sql q') :
    LeavesAlone w db (Program.request (I := seedSteps) q : Seeding (SeedReply q)) fun _ => True := by
  intro s hs
  cases q with
  | sql q => exact absurd rfl (hq q)
  | clock => exact ⟨_, s.draws, trivial, rfl⟩
  | newUuid => exact ⟨_, s.draws + 1, trivial, rfl⟩
  | hashPassword password => exact ⟨_, s.draws + 1, trivial, rfl⟩

end LeavesAlone

/-- Password hashing does not fail. -/
def World.Hashes (w : World) : Prop := ∀ n password, ∃ h, w.hashPassword n password = .ok h

theorem leavesAlone_seedHash {db : Db} (hhash : w.Hashes) (password : String) :
    LeavesAlone w db (seedHash password) fun _ => True := by
  intro s hs
  obtain ⟨hashed, hok⟩ := hhash s.draws password
  refine ⟨hashed, s.draws + 1, trivial, ?_⟩
  show (Program.ofExcept (w.hashPassword s.draws password)).exec (handleSeed w) s.drawn = _
  rw [hok]
  rfl

theorem leavesAlone_seedAdmin {db : Db} (hfits : input.Fits w) (hhash : w.Hashes)
    (h : Seeded w toJson input db) {email password : String} (hemail : input.adminEmail = some email)
    (hpassword : input.adminPassword = some password) :
    LeavesAlone w db (seedAdmin w input email password) fun _ => True := by
  obtain ⟨hne, id, userId, roleId, hid, htaken, huser, hrole, hassigned⟩ := h.admin _ _ hemail hpassword
  unfold seedAdmin
  dsimp only
  rw [if_neg hne]
  refine (leavesAlone_seedHash hhash password).bind fun hashed _ => ?_
  refine (LeavesAlone.request fun _ hq => by cases hq).bind fun now _ => ?_
  have hidentity : ∀ firstName lastName, LeavesAlone w db
      (seedIdentity (SeedInput.storedEmail w email) firstName lastName hashed) (· = id) := by
    intro firstName lastName
    refine (LeavesAlone.query (r := some id) fun env henv => ?_).bind ?_
    · simp only [SeedStmt.exec]
      rw [henv, hid]
    · rintro _ rfl
      exact .pure rfl
  refine (hidentity _ _).bind ?_
  rintro _ rfl
  refine (LeavesAlone.request fun _ hq => by cases hq).bind fun newId _ => ?_
  refine (LeavesAlone.query (r := ()) fun env _ => ?_).bind fun _ _ => ?_
  · exact unitRows_eq_ok.mpr (insertMembershipOnce_again hfits.tenantId htaken)
  refine (LeavesAlone.query (r := some userId) fun env _ => ?_).bind ?_
  · simp only [SeedStmt.exec]
    rw [huser]
  rintro _ rfl
  refine (LeavesAlone.query (r := roleId) fun env _ => ?_).bind ?_
  · simp only [SeedStmt.exec]
    rw [hrole]
  rintro roleId rfl
  intro s hs
  obtain ⟨u, n, -, hexec⟩ := LeavesAlone.query (w := w) (q := .assignRole _ roleId) (r := ())
    (fun env _ => unitRows_eq_ok.mpr (assignRoleOnce_again hassigned)) s hs
  exact ⟨u, n, trivial, hexec⟩

variable (input) in
/-- The tables after seeding again: the row of the frontend's address, if there is one, is new. -/
def SeedInput.touched (now : Time) (db : Db) : Db :=
  if input.appUrl.isSome then db.touchBaseUrl input.tenantId now else db

/-- What is there stays when the address is written again. -/
theorem Seeded.touched {db : Db} (h : Seeded w toJson input db) (now : Time) :
    Seeded w toJson input (input.touched now db) := by
  unfold SeedInput.touched
  split
  · refine ⟨h.tenant, fun url happ => ?_, h.role, h.admin⟩
    obtain ⟨value, hvalue, hstored⟩ := h.url url happ
    exact ⟨value, hvalue, hstored.touched now⟩
  · exact h

/-- **The address of the frontend is written again**, with the time. -/
theorem exec_seedAppUrl (hfits : input.Fits w) (s : State) (h : Seeded w toJson input s.db) :
    ∃ n, (seedAppUrl toJson input).exec (handleSeed w) s =
      (.ok (), { s with draws := n, db := input.touched s.now s.db }) := by
  unfold seedAppUrl SeedInput.touched
  cases happ : input.appUrl with
  | none => exact ⟨s.draws, rfl⟩
  | some url =>
    obtain ⟨value, hvalue, hstored⟩ := h.url url happ
    have hhandle : handleSeed w (.sql (.upsertBaseUrl input.tenantId value)) s =
        (.ok (), { s.drawn with db := s.db.touchBaseUrl input.tenantId s.now }) := by
      have hexec : (SeedStmt.upsertBaseUrl input.tenantId value).exec (s.sqlEnv w) s.db =
          .ok ((), s.db.touchBaseUrl input.tenantId s.now) :=
        unitRows_eq_ok.mpr (upsertBaseUrl_again hfits.tenantId hstored)
      simp only [handleSeed]
      rw [hexec]
    refine ⟨s.draws + 1, ?_⟩
    dsimp only
    rw [hvalue]
    show (Program.ofExcept ((handleSeed w (.sql (.upsertBaseUrl input.tenantId value)) s).1.mapError
      SqlError.display)).exec (handleSeed w)
        (handleSeed w (.sql (.upsertBaseUrl input.tenantId value)) s).2 = _
    rw [hhandle]
    rfl

/-- **Seeding what is seeded changes nothing**, but for the time of the frontend's address. -/
theorem exec_seed_again (hfits : input.Fits w) (hhash : w.Hashes) (s : State)
    (h : Seeded w toJson input s.db) : ∃ n, (seed w toJson input).exec (handleSeed w) s =
      (.ok (), { s with draws := n, db := input.touched s.now s.db }) := by
  have htouched := h.touched s.now
  have htenant : LeavesAlone w s.db (seedQuery (.upsertTenant input.tenantId input.tenantName))
      (· = ()) :=
    .query fun env _ => unitRows_eq_ok.mpr (upsertTenantRow_again hfits.tenantId h.tenant)
  have hrole : LeavesAlone w (input.touched s.now s.db)
      (seedQuery (.insertRole input.tenantId input.roleName (toUid w input.roleName))) (· = ()) :=
    .query fun env _ => unitRows_eq_ok.mpr (insertRoleOnce_again htouched.role)
  obtain ⟨u, n, -, hexec⟩ := htenant s rfl
  obtain ⟨n₁, hexec₁⟩ := exec_seedAppUrl hfits { s with draws := n } h
  obtain ⟨u₂, n₂, -, hexec₂⟩ := hrole { s with draws := n₁, db := input.touched s.now s.db } rfl
  unfold seed
  rw [Program.bind_eq, Program.exec_bind_ok _ hexec, Program.bind_eq, Program.exec_bind_ok _ hexec₁,
    Program.bind_eq, Program.exec_bind_ok _ hexec₂]
  cases hemail : input.adminEmail with
  | none => exact ⟨n₂, rfl⟩
  | some email =>
    cases hpassword : input.adminPassword with
    | none => exact ⟨n₂, rfl⟩
    | some password =>
      obtain ⟨u₃, n₃, -, hadmin⟩ := leavesAlone_seedAdmin hfits hhash htouched hemail hpassword
        { s with draws := n₂, db := input.touched s.now s.db } rfl
      exact ⟨n₃, hadmin⟩

/-! ### Runs -/

variable (w toJson input) in
/-- What goes on besides the seeders: it does not undo what they achieve. -/
structure Undisturbing where
  act : State → State
  keeps : ∀ s (q : SeedStmt) r, input.Sends w toJson q →
    q.Remains w.lower (toUid w input.roleName) s.db r →
    q.Remains w.lower (toUid w input.roleName) (act s).db r

variable {ι : Type} [DecidableEq ι]

variable (w toJson input) in
/-- Seeders with one input, side by side. -/
abbrev seedRun (s : State) (l : List (ι ⊕ Undisturbing w toJson input)) :
    Config seedSteps String Unit ι State :=
  (Config.start s fun _ => seed w toJson input).run (handleSeed w) Undisturbing.act l

variable (w toJson input) in
/-- **The invariant**: every statement that has returned is one of a seeder, and what remains of it is
there. -/
def Achieved (s : State) (log : List (Move seedSteps ι State)) : Prop :=
  ∀ m ∈ log, ∀ q r, m.event = seedDid q r →
    input.Sends w toJson q ∧ q.Remains w.lower (toUid w input.roleName) s.db r

theorem Achieved.of_own {s : State} {log : List (Move seedSteps ι State)}
    (h : Achieved w toJson input s log) {i : ι} {q : SeedStmt} {r : q.Rows}
    (hown : seedDid q r ∈ own i log) : q.Remains w.lower (toUid w input.roleName) s.db r := by
  obtain ⟨m, hm, -, hevent⟩ := mem_own.mp hown
  exact (h m hm q r hevent).2

/-- **Every exchange of a seeder keeps the invariant.** -/
theorem Achieved.move (hfits : input.Fits w) {s : State} {log : List (Move seedSteps ι State)}
    (h : Achieved w toJson input s log) {i : ι} {q : SeedRequest}
    (hstep : (seedContract w toJson input).guarantee (own i log) ⟨q, (handleSeed w q s).1⟩) :
    Achieved w toJson input (handleSeed w q s).2 (⟨i, ⟨q, (handleSeed w q s).1⟩, s⟩ :: log) := by
  cases q with
  | sql stmt =>
    obtain ⟨hsends, hprepared⟩ := hstep stmt rfl
    cases hexec : stmt.exec (s.sqlEnv w) s.db with
    | error e =>
      have hhandle : handleSeed w (.sql stmt) s = (.error e, s.drawn) := by
        simp only [handleSeed]
        rw [hexec]
      rw [hhandle]
      intro m hm q r hevent
      rcases List.mem_cons.mp hm with rfl | hm
      · cases hevent
      · exact h m hm q r hevent
    | ok x =>
      obtain ⟨r, db⟩ := x
      have hhandle : handleSeed w (.sql stmt) s = (.ok r, { s.drawn with db := db }) := by
        simp only [handleSeed]
        rw [hexec]
      rw [hhandle]
      intro m hm q' r' hevent
      rcases List.mem_cons.mp hm with rfl | hm
      · cases hevent
        refine ⟨hsends, SeedStmt.exec_achieves hfits rfl hsends ?_ ?_ hexec⟩
        · rintro T i rfl
          obtain ⟨id, now, hdid⟩ := hprepared
          exact h.of_own hdid
        · rintro T n rfl
          exact h.of_own hprepared
      · obtain ⟨hsends', hremains⟩ := h m hm q' r' hevent
        exact ⟨hsends', SeedStmt.exec_keeps hfits rfl hsends hexec hsends' hremains⟩
  | _ =>
    intro m hm q r hevent
    rcases List.mem_cons.mp hm with rfl | hm
    · cases hevent
    · exact h m hm q r hevent

/-- A seeder that has done everything leaves it seeded. -/
theorem SeedDone.seeded {s : State} {log : List (Move seedSteps ι State)}
    (h : Achieved w toJson input s log) {i : ι} (hdone : SeedDone w toJson input (own i log)) :
    Seeded w toJson input s.db where
  tenant := h.of_own hdone.tenant
  url url happ := by
    obtain ⟨value, hvalue, hdid⟩ := hdone.url url happ
    exact ⟨value, hvalue, h.of_own hdid⟩
  role := h.of_own hdone.role
  admin email password hemail hpassword := by
    cases hdone.admin email password hemail hpassword with
    | lost hdid =>
      -- The membership was inserted before it was looked for.
      obtain ⟨htaken, hnone⟩ := h.of_own hdid
      obtain ⟨userId, huser⟩ := Db.membershipIdOf_isSome htaken
      cases huser.symm.trans hnone
    | assigned hne hidentity hmember hrole hassign =>
      refine ⟨hne, _, _, _, ?_, (h.of_own hmember).1, (h.of_own hmember).2, (h.of_own hrole).2,
        h.of_own hassign⟩
      rcases hidentity with hfound | ⟨firstName, lastName, passwordHash, hcreated⟩
      · exact h.of_own hfound _ rfl
      · exact h.of_own hcreated

/-- **Seeding again**: however the seeders have run side by side, and whichever of them were stopped, once
one of them has ended well everything is there; and a seeder that starts then ends well, and leaves the
tables as they are, but for the time at which the address of the frontend was written. -/
theorem run_seed_idempotent (hfits : input.Fits w) (hhash : w.Hashes) (s : State)
    (l : List (ι ⊕ Undisturbing w toJson input)) {i : ι}
    (hend : (seedRun w toJson input s l).threads i = .pure ()) :
    Seeded w toJson input (seedRun w toJson input s l).state.db ∧
      ∃ n, (seed w toJson input).exec (handleSeed w) (seedRun w toJson input s l).state =
        (.ok (), { (seedRun w toJson input s l).state with
          draws := n
          db := input.touched (seedRun w toJson input s l).state.now
            (seedRun w toJson input s l).state.db }) := by
  have hachieved : Achieved w toJson input (seedRun w toJson input s l).state
      (seedRun w toJson input s l).log := by
    refine Config.run_invariant (C := fun _ => seedContract w toJson input)
      (J := fun s log => Achieved w toJson input s log) (fun _ => seed_keeps) (fun _ _ _ => trivial)
      (fun _ hm => by cases hm) ?_ ?_ l
    · intro s log i q h hstep
      exact h.move hfits hstep
    · intro s log t h m hm q r hevent
      exact ⟨(h m hm q r hevent).1, t.keeps _ _ _ (h m hm q r hevent).1 (h m hm q r hevent).2⟩
  have hdone : SeedDone w toJson input (own i (seedRun w toJson input s l).log) :=
    Config.run_outcome (C := fun _ => seedContract w toJson input)
      (Q := fun _ => Program.OnOk fun _ h' => SeedDone w toJson input h') (fun _ => seed_keeps)
      (fun _ _ _ => trivial) l hend
  have hseeded := hdone.seeded hachieved
  exact ⟨hseeded, exec_seed_again hfits hhash _ hseeded⟩

end Seeders

/-! ### Two seeders -/

/-- The input of a tenant with an administrator. -/
def acmeInput : SeedInput where
  tenantId := "acme"
  tenantName := "Acme"
  roleName := "Admin"
  adminEmail := some "Ann@acme.example"
  adminPassword := some "correct horse"
  adminFirstName := none
  adminLastName := none
  appUrl := some "https://acme.example"

/-- A text in quotes. -/
def quoted (s : String) : Except String String := .ok ("\"" ++ s ++ "\"")

/-- Two seeders, step by step in turns. -/
def inTurns : List (Bool ⊕ Undisturbing .offline quoted acmeInput) :=
  (List.replicate 12 [Sum.inl true, Sum.inl false]).flatten

theorem acmeInput_fits : acmeInput.Fits .offline where
  tenantId := by decide
  uid := by decide +kernel
  email := by
    rintro _ ⟨⟩
    decide +kernel

/-- The second one finds that the identity has just been created, and fails; the first one ends well. -/
theorem run_seed_idempotent_inTurns :
    ∃ n, (seed .offline quoted acmeInput).exec (handleSeed .offline)
        (seedRun .offline quoted acmeInput (.ofDb .empty 0) inTurns).state =
      (.ok (), { (seedRun .offline quoted acmeInput (.ofDb .empty 0) inTurns).state with
        draws := n
        db := acmeInput.touched (seedRun .offline quoted acmeInput (.ofDb .empty 0) inTurns).state.now
          (seedRun .offline quoted acmeInput (.ofDb .empty 0) inTurns).state.db }) :=
  (run_seed_idempotent acmeInput_fits (fun _ _ => ⟨_, rfl⟩) (.ofDb .empty 0) inTurns (i := true)
    (Program.value_eq_some.mp (by decide +kernel))).2

end Authrs
