import Authrs.Repo.KvStore
import Authrs.Routes.Signup

/-!
# The seeder

Base data from the environment: a tenant with the address of its frontend, a role, and a membership of
an administrator who has the role. The seeder sends its statements one by one, without a transaction,
and each of them leaves alone what it finds.

## Main definitions

* `SeedInput`, `SeedInput.fromEnv`: what is seeded
* `SeedStmt`, `SeedStmt.exec`: the statements
* `SeedRequest`, `handleSeed`: the requests of the seeder
* `seed`: the seeder, `run` in the source

## Main results

* `SeedInput.fromEnv_ok`: what is known of an input from the environment
-/

namespace Authrs

open Interaction Relational

/-- User-provided seed input. -/
structure SeedInput where
  tenantId : String
  tenantName : String
  roleName : String
  adminEmail : Option String
  adminPassword : Option String
  adminFirstName : Option String
  adminLastName : Option String
  appUrl : Option String

namespace SeedInput

/-- `.ok().filter(|s| !s.is_empty())`. -/
def nonEmpty (v : Option String) : Option String := v.filter fun s => s ≠ ""

/-- `.map(|s| s.trim().trim_end_matches('/').to_string())`, and empty counts as absent. -/
def baseUrl (v : Option String) : Option String := nonEmpty (v.map fun s => trimEndSlashes (trim s))

/-- `replace('_', " ")`. -/
def spaced (s : String) : String :=
  String.ofList (s.toList.map fun c => if c = '_' then ' ' else c)

/-- Load from the variables of the environment. Nothing is seeded without a tenant id. -/
def fromEnv (var : String → Option String) : Except String (Option SeedInput) :=
  match nonEmpty (var "SEED_TENANT_ID") with
  | none => .ok none
  | some tenantId =>
    let input : SeedInput := {
      tenantId := tenantId
      tenantName := (var "SEED_TENANT_NAME").getD (spaced tenantId)
      roleName := (var "SEED_ROLE_NAME").getD "Launchpad Admin"
      adminEmail := nonEmpty (var "SEED_ADMIN_EMAIL")
      adminPassword := nonEmpty (var "SEED_ADMIN_PASSWORD")
      adminFirstName := nonEmpty (var "SEED_ADMIN_FIRST_NAME")
      adminLastName := nonEmpty (var "SEED_ADMIN_LAST_NAME")
      appUrl := baseUrl (var "SEED_APP_URL") }
    if input.adminEmail.isSome ∧ input.adminPassword.all (· = "") then
      .error "SEED_ADMIN_PASSWORD is required when SEED_ADMIN_EMAIL is set"
    else .ok (some input)

theorem nonEmpty_eq_some {v : Option String} {s : String} :
    nonEmpty v = some s ↔ v = some s ∧ s ≠ "" := by
  unfold nonEmpty
  rw [Option.filter_eq_some_iff]
  simp

/-- **An input from the environment** names a tenant, and an administrator comes with a password. -/
theorem fromEnv_ok {var : String → Option String} {input : SeedInput}
    (h : fromEnv var = .ok (some input)) :
    input.tenantId ≠ "" ∧ ∀ email, input.adminEmail = some email →
      email ≠ "" ∧ ∃ password, input.adminPassword = some password ∧ password ≠ "" := by
  unfold fromEnv at h
  split at h
  · cases h
  · rename_i tenantId htenant
    dsimp only at h
    split at h
    · cases h
    · rename_i hpassword
      cases h
      refine ⟨(nonEmpty_eq_some.mp htenant).2, fun email hemail => ?_⟩
      refine ⟨(nonEmpty_eq_some.mp hemail).2, ?_⟩
      change nonEmpty (var "SEED_ADMIN_EMAIL") = some email at hemail
      cases hgiven : nonEmpty (var "SEED_ADMIN_PASSWORD") with
      | none =>
        rw [hgiven, hemail] at hpassword
        exact absurd ⟨rfl, rfl⟩ hpassword
      | some password => exact ⟨password, rfl, (nonEmpty_eq_some.mp hgiven).2⟩

end SeedInput

/-! ### Statements -/

/-- The statements of the seeder. -/
inductive SeedStmt
  | upsertTenant (id name : String)
  | upsertBaseUrl (tenantId value : String)
  | insertRole (tenantId name uid : String)
  | findIdentity (email : String)
  | createIdentity (email firstName lastName passwordHash : String)
  | insertMembership (id : Uuid) (tenantId : String) (identityId : Uuid) (now : Time)
  | findMembership (tenantId : String) (identityId : Uuid)
  | findRole (tenantId name : String)
  | assignRole (userId roleId : Uuid)

/-- What the statement returns. The numbers of rows are only logged. -/
@[reducible] def SeedStmt.Rows : SeedStmt → Type
  | .findIdentity _ => Option Uuid
  | .createIdentity .. => Uuid
  | .findMembership .. => Option Uuid
  | .findRole .. => Uuid
  | _ => Unit

namespace Db

/-- `WHERE lower(email) = lower($1)`. -/
def identityByEmail (db : Db) (lower : String → String) (email : String) : Option Uuid :=
  (db.identities.selectOne fun r => r.email.any fun e => lower e = lower email).map fun r => r.id

/-- `WHERE tenant_id = $1 AND identity_id = $2`. -/
def membershipIdOf (db : Db) (tenantId : String) (identityId : Uuid) : Option Uuid :=
  (db.users.selectOne (membershipTaken tenantId identityId)).map (·.id)

/-- `WHERE tenant_id = $1 AND name = $2`. -/
def roleIdNamed (db : Db) (tenantId name : String) : Option Uuid :=
  (db.roles.selectOne fun r => r.tenantId = tenantId && r.name = name).map (·.id)

/-- `WHERE r.tenant_id = $1 AND r.uid = $3`. -/
def hasRoleUid (db : Db) (tenantId uid : String) : Bool :=
  db.roles.rows.any fun r => r.tenantId = tenantId && r.uid = uid

end Db

/-- `SET name = EXCLUDED.name`. -/
def TenantRow.withName (name : String) (r : TenantRow) : TenantRow := { r with name := name }

@[simp] theorem TenantRow.withName_id (name : String) (r : TenantRow) : (r.withName name).id = r.id := rfl

/-- `INSERT INTO tenants … ON CONFLICT (id) DO UPDATE`. -/
def upsertTenantRow (now : Time) (db : Db) (id name : String) : Except SqlError Db := do
  let id ← varcharReq 255 id
  let name ← varcharReq 255 name
  if !isLowerSnakeCase id then .error (.checkViolation "tenants" "tenants_id_check")
  else if db.tenants.rows.any fun r => r.id ≠ id && r.name = name then
    .error (.uniqueViolation "tenants_name_key")
  else
    match db.tenants.insert? ⟨id, name, "active", now⟩ with
    | some tenants => .ok { db with tenants := tenants }
    | none => .ok { db with
        tenants := db.tenants.update (fun r => r.id = id) (.withName name) (TenantRow.withName_id name) }

/-- `INSERT INTO roles … WHERE NOT EXISTS`. -/
def insertRoleOnce (env : SqlEnv) (db : Db) (tenantId name uid : String) : Except SqlError Db :=
  if db.hasRoleUid tenantId uid then .ok db
  else (insertRole db (env.uuid 0) tenantId name uid none).map Prod.snd

/-- `INSERT INTO users … ON CONFLICT (tenant_id, identity_id) DO NOTHING`. -/
def insertMembershipOnce (db : Db) (id : Uuid) (tenantId : String) (identityId : Uuid) (now : Time) :
    Except SqlError Db := do
  let stored ← varcharReq 255 tenantId
  if db.users.rows.any (membershipTaken stored identityId) then .ok db
  else (insertMembership db id tenantId identityId none now).map Prod.snd

/-- `INSERT INTO user_roles … ON CONFLICT (user_id, role_id) DO NOTHING`. -/
def assignRoleOnce (db : Db) (userId roleId : Uuid) : Except SqlError Db :=
  match db.userRoles.insert? ⟨userId, roleId⟩ with
  | none => .ok db
  | some userRoles =>
    if !db.hasUser userId then .error (.foreignKeyViolation "user_roles" "user_roles_user_id_fkey")
    else if (db.roles.selectOne fun r => r.id = roleId).isNone then
      .error (.foreignKeyViolation "user_roles" "user_roles_role_id_fkey")
    else .ok { db with userRoles := userRoles }

/-- A statement that returns nothing. -/
def unitRows (r : Except SqlError Db) : Except SqlError (Unit × Db) := r.map fun db => ((), db)

/-- **A statement of the seeder**: its result and the tables after it. -/
def SeedStmt.exec (env : SqlEnv) (db : Db) : (q : SeedStmt) → Except SqlError (q.Rows × Db)
  | .upsertTenant id name => unitRows (upsertTenantRow env.now db id name)
  | .upsertBaseUrl tenantId value =>
    unitRows (upsertKv env.now db tenantId "frontend_config" "base_url" value false)
  | .insertRole tenantId name uid => unitRows (insertRoleOnce env db tenantId name uid)
  | .findIdentity email => .ok (db.identityByEmail env.lower email, db)
  | .createIdentity email firstName lastName passwordHash =>
    (insertIdentity env db (some email) none none (some firstName) (some lastName)
      (some passwordHash)).map fun x => (x.1.id, x.2)
  | .insertMembership id tenantId identityId now =>
    unitRows (insertMembershipOnce db id tenantId identityId now)
  | .findMembership tenantId identityId => .ok (db.membershipIdOf tenantId identityId, db)
  | .findRole tenantId name =>
    match db.roleIdNamed tenantId name with
    | some id => .ok (id, db)
    | none => .error .rowNotFound
  | .assignRole userId roleId => unitRows (assignRoleOnce db userId roleId)

/-! ### The seeder -/

/-- A request of the seeder. -/
inductive SeedRequest
  | sql (q : SeedStmt)
  | clock
  | newUuid
  | hashPassword (password : String)

/-- The reply to a request. -/
@[reducible] def SeedReply : SeedRequest → Type
  | .sql q => Except SqlError q.Rows
  | .clock => Time
  | .newUuid => Uuid
  | .hashPassword _ => Except String String

abbrev seedSteps : Interface := ⟨SeedRequest, SeedReply⟩

/-- **The meaning of the requests.** -/
def handleSeed (w : World) : Handler seedSteps State
  | .sql q, s =>
    match q.exec (s.sqlEnv w) s.db with
    | .ok (r, db) => (.ok r, { s.drawn with db := db })
    | .error e => (.error e, s.drawn)
  | .clock, s => (s.now, s)
  | .newUuid, s => (w.uuid s.draws, s.drawn)
  | .hashPassword password, s => (w.hashPassword s.draws password, s.drawn)

/-- A part of the seeder; it fails with a text. -/
abbrev Seeding (α : Type) : Type := Program seedSteps String α

/-- A statement, with `.map_err(|e| e.to_string())?` on its result. -/
def seedQuery (q : SeedStmt) : Seeding q.Rows := do
  let r ← Program.request (I := seedSteps) (SeedRequest.sql q)
  Program.ofExcept (r.mapError SqlError.display)

/-- `hash_password`. -/
def seedHash (password : String) : Seeding String := do
  let r ← Program.request (I := seedSteps) (SeedRequest.hashPassword password)
  Program.ofExcept r

/-- The global identity of an address, found or created. -/
def seedIdentity (email firstName lastName passwordHash : String) : Seeding Uuid := do
  let found : Option Uuid ← seedQuery (.findIdentity email)
  match found with
  | some id => pure id
  | none => seedQuery (.createIdentity email firstName lastName passwordHash)

/-- The address of the administrator, as it is stored. -/
def SeedInput.storedEmail (w : World) (email : String) : String := w.toLowercase (trim email)

/-- The administrator: an identity, its membership of the tenant, and the role. -/
def seedAdmin (w : World) (input : SeedInput) (email password : String) : Seeding Unit := do
  let email := SeedInput.storedEmail w email
  if email = "" then Program.throw "SEED_ADMIN_EMAIL cannot be empty"
  else do
    let passwordHash ← seedHash password
    let now : Time ← Program.request (I := seedSteps) SeedRequest.clock
    let identityId ← seedIdentity email (input.adminFirstName.getD "Admin")
      (input.adminLastName.getD "User") passwordHash
    let userId : Uuid ← Program.request (I := seedSteps) SeedRequest.newUuid
    seedQuery (.insertMembership userId input.tenantId identityId now)
    let existing : Option Uuid ← seedQuery (.findMembership input.tenantId identityId)
    match existing with
    | some uid => do
      let roleId : Uuid ← seedQuery (.findRole input.tenantId input.roleName)
      seedQuery (.assignRole uid roleId)
    | none => pure ()

/-- The address of the frontend, as a JSON text. -/
def seedAppUrl (toJson : String → Except String String) (input : SeedInput) : Seeding Unit :=
  match input.appUrl with
  | some url => do
    let value ← Program.ofExcept (toJson url)
    seedQuery (.upsertBaseUrl input.tenantId value)
  | none => pure ()

/-- **The seeder**, `run`: the tenant, its frontend, the role, and an administrator if there is one. -/
def seed (w : World) (toJson : String → Except String String) (input : SeedInput) : Seeding Unit := do
  seedQuery (.upsertTenant input.tenantId input.tenantName)
  seedAppUrl toJson input
  seedQuery (.insertRole input.tenantId input.roleName (toUid w input.roleName))
  match input.adminEmail, input.adminPassword with
  | some email, some password => seedAdmin w input email password
  | _, _ => pure ()

end Authrs
