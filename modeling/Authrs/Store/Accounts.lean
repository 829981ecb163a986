import Authrs.Store.World
import Mathlib.Data.List.Sort

/-!
# Statements on identities and memberships

The SQL statements that `IdentitiesRepo`, `MfaRepo` and `UsersRepo` send about `identities`,
`identity_backup_codes` and `users`, each with the rows it returns and what it does to the tables.
A statement is atomic, and so is a transaction; one that fails changes nothing.

## Main definitions

* `SqlEnv`: what a statement reads besides the tables
* `IdentityStmt`, `IdentityStmt.exec`: identities and their backup codes
* `MembershipStmt`, `MembershipStmt.exec`: memberships
* `Db.memberships`: `users u JOIN identities i ON i.id = u.identity_id`

## Main results

* `mem_memberships`, `find_membership`, `length_filter_memberships`: the joined rows
* `identity_updateIdentity`: an identity after its update
* `insertIdentity_ok`, `insertMembership_ok`: what a successful insert has checked and done
* `IdentityStmt.exec_frame`, `MembershipStmt.exec_frame`: what a statement leaves alone
-/

namespace Authrs

open Relational

/-- What a statement reads besides the tables: `now()`, `LOWER` and `gen_random_uuid()`. -/
structure SqlEnv where
  now : Time
  lower : String → String
  uuid : Nat → Uuid

/-- `VARCHAR(n)` assignment of a value that may be `NULL`. -/
def varcharOpt (n : Nat) : Option String → Except SqlError (Option String)
  | none => .ok none
  | some s =>
    match varchar n s with
    | some s' => .ok (some s')
    | none => .error (.valueTooLong n)

/-- `VARCHAR(n)` assignment. -/
def varcharReq (n : Nat) (s : String) : Except SqlError String :=
  match varchar n s with
  | some s' => .ok s'
  | none => .error (.valueTooLong n)

theorem varcharReq_of_le {n : Nat} {s : String} (h : s.toList.length ≤ n) :
    varcharReq n s = .ok s := by
  unfold varcharReq
  rw [varchar_of_le h]

theorem varcharReq_ok {n : Nat} {s t : String} (h : varcharReq n s = .ok t) :
    varchar n s = some t := by
  unfold varcharReq at h
  split at h <;> cases h
  assumption

theorem varcharReq_idem {n : Nat} {s t : String} (h : varcharReq n s = .ok t) :
    varcharReq n t = .ok t := by
  unfold varcharReq
  rw [varchar_idem (varcharReq_ok h)]

/-- A tenant id is stored as it is, or not at all. -/
theorem varcharReq_tenantId {n : Nat} {T : TenantId} {t : String}
    (h : varcharReq n T.val = .ok t) : t = T.val :=
  varchar_of_no_blank (varcharReq_ok h) T.blank_notMem

/-- The largest value of an `INT` column. -/
def maxInt : Nat := 2147483647

/-! ### Identities -/

/-- The statements on `identities` and `identity_backup_codes`. -/
inductive IdentityStmt
  | getById (id : Uuid)
  | getByEmail (email : String)
  | getByMobile (countryCode mobile : String)
  | create (email mobile countryCode firstName lastName passwordHash : Option String)
  | updatePassword (id : Uuid) (passwordHash : String)
  | setForcePasswordChange (id : Uuid) (value : Bool)
  | incrementFailedAttempts (id : Uuid) (lockUntil : Option Time)
  | clearFailedAttempts (id : Uuid)
  | setStatus (id : Uuid) (status : String)
  | existsByEmail (email : String)
  | existsByMobile (countryCode mobile : String)
  | setPendingSecret (id : Uuid) (encryptedSecret : String)
  | enable (id : Uuid) (hashes : List String)
  | disable (id : Uuid)
  | markStepUsed (id : Uuid) (step : Nat)
  | replaceBackupCodes (id : Uuid) (hashes : List String)
  | consumeBackupCode (id : Uuid) (codeHash : String)
  | countUnusedBackupCodes (id : Uuid)

/-- What the statement returns: rows, or the number of rows it touched. -/
@[reducible] def IdentityStmt.Rows : IdentityStmt → Type
  | .getById _ => Option Identity
  | .getByEmail _ => Option Identity
  | .getByMobile _ _ => Option Identity
  | .create .. => Identity
  | .existsByEmail _ => Bool
  | .existsByMobile _ _ => Bool
  | .countUnusedBackupCodes _ => Nat
  | _ => Nat

namespace Db

/-- The identity with an id. -/
def identity (db : Db) (id : Uuid) : Option IdentityRow :=
  db.identities.selectOne fun r => r.id = id

/-- `WHERE LOWER(email) = LOWER($1)`. -/
def emailIs (env : SqlEnv) (email : String) (r : IdentityRow) : Bool :=
  r.email.any fun e => env.lower e = env.lower email

/-- `WHERE country_code = $1 AND mobile = $2`. -/
def mobileIs (countryCode mobile : String) (r : IdentityRow) : Bool :=
  r.countryCode = some countryCode && r.mobile = some mobile

/-- Change the identity with an id. The change leaves the id alone. -/
def updateIdentity (db : Db) (id : Uuid) (f : IdentityRow → IdentityRow)
    (hf : ∀ r, (f r).id = r.id) : Db :=
  { db with identities := db.identities.update (fun r => r.id = id) f hf }

theorem identity_updateIdentity {db : Db} {id : Uuid} {f : IdentityRow → IdentityRow}
    {hf : ∀ r, (f r).id = r.id} {i : IdentityRow} (hi : db.identity id = some i) :
    (db.updateIdentity id f hf).identity id = some (f i) := by
  obtain ⟨hmem, hid⟩ := Table.selectOne_key.mp hi
  have hf' : f i ∈ db.identities.update (fun r => r.id = id) f hf :=
    Table.mem_update_of_pos hmem (by simpa using hid)
  exact Table.selectOne_key.mpr ⟨hf', (hf i).trans hid⟩

theorem identity_updateIdentity_none {db : Db} {id : Uuid} {f : IdentityRow → IdentityRow}
    {hf : ∀ r, (f r).id = r.id} (hi : db.identity id = none) :
    (db.updateIdentity id f hf).identity id = none := by
  have hall := Table.selectOne_key_eq_none.mp hi
  rw [← hi]
  unfold Db.updateIdentity
  rw [Table.update_of_forall_not (fun r hr => by simpa using hall r hr)]

/-- The number of identities with an id: one or none. -/
def identityCount (db : Db) (id : Uuid) : Nat :=
  db.identities.affected fun r => r.id = id

end Db

namespace IdentityRow

/-- `SET password_hash = $1, force_password_change = false`. -/
def withPassword (now : Time) (passwordHash : String) (r : IdentityRow) : IdentityRow :=
  { r with passwordHash := some passwordHash, forcePasswordChange := false, updatedAt := now }

/-- `SET force_password_change = $1`. -/
def withForcePasswordChange (now : Time) (value : Bool) (r : IdentityRow) : IdentityRow :=
  { r with forcePasswordChange := value, updatedAt := now }

/-- `SET failed_attempts = failed_attempts + 1`, and `locked_until` when a lock is given. -/
def withFailedAttempt (now : Time) (lockUntil : Option Time) (r : IdentityRow) : IdentityRow :=
  { r with
    failedAttempts := r.failedAttempts + 1
    lockedUntil := lockUntil.orElse fun _ => r.lockedUntil
    updatedAt := now }

/-- `SET failed_attempts = 0, locked_until = NULL`. -/
def withClearedAttempts (now : Time) (r : IdentityRow) : IdentityRow :=
  { r with failedAttempts := 0, lockedUntil := none, updatedAt := now }

/-- `SET status = $1`. -/
def withStatus (now : Time) (status : String) (r : IdentityRow) : IdentityRow :=
  { r with status := status, updatedAt := now }

/-- `SET mfa_secret = $1, mfa_enabled = false, mfa_last_used_step = NULL`. -/
def withPendingSecret (now : Time) (secret : String) (r : IdentityRow) : IdentityRow :=
  { r with
    mfaSecret := some secret
    mfaEnabled := false
    mfaLastUsedStep := none
    updatedAt := now }

/-- `SET mfa_enabled = true`. -/
def withMfaEnabled (now : Time) (r : IdentityRow) : IdentityRow :=
  { r with mfaEnabled := true, updatedAt := now }

/-- `SET mfa_enabled = false, mfa_secret = NULL, mfa_last_used_step = NULL`. -/
def withMfaDisabled (now : Time) (r : IdentityRow) : IdentityRow :=
  { r with mfaEnabled := false, mfaSecret := none, mfaLastUsedStep := none, updatedAt := now }

/-- `SET mfa_last_used_step = $2`. -/
def withUsedStep (step : Nat) (r : IdentityRow) : IdentityRow :=
  { r with mfaLastUsedStep := some step }

section Keys

variable (now : Time) (r : IdentityRow)

@[simp] theorem withPassword_id (h : String) : (r.withPassword now h).id = r.id := rfl

@[simp] theorem withForcePasswordChange_id (b : Bool) :
    (r.withForcePasswordChange now b).id = r.id := rfl

@[simp] theorem withFailedAttempt_id (l : Option Time) :
    (r.withFailedAttempt now l).id = r.id := rfl

@[simp] theorem withClearedAttempts_id : (r.withClearedAttempts now).id = r.id := rfl

@[simp] theorem withStatus_id (status : String) : (r.withStatus now status).id = r.id := rfl

@[simp] theorem withPendingSecret_id (secret : String) :
    (r.withPendingSecret now secret).id = r.id := rfl

@[simp] theorem withMfaEnabled_id : (r.withMfaEnabled now).id = r.id := rfl

@[simp] theorem withMfaDisabled_id : (r.withMfaDisabled now).id = r.id := rfl

@[simp] theorem withUsedStep_id (step : Nat) : (r.withUsedStep step).id = r.id := rfl

end Keys

/-- `WHERE id = $1 AND (mfa_last_used_step IS NULL OR mfa_last_used_step < $2)`. -/
def acceptsStep (id : Uuid) (step : Nat) (r : IdentityRow) : Bool :=
  r.id = id && r.mfaLastUsedStep.all (· < step)

end IdentityRow

/-- The defaults of a new identity row. -/
def IdentityRow.ofHandles (env : SqlEnv)
    (email mobile countryCode firstName lastName passwordHash : Option String) :
    IdentityRow where
  id := env.uuid 0
  email := email
  mobile := mobile
  countryCode := countryCode
  firstName := firstName
  lastName := lastName
  passwordHash := passwordHash
  mfaEnabled := false
  mfaSecret := none
  forcePasswordChange := false
  failedAttempts := 0
  lockedUntil := none
  status := "active"
  createdAt := env.now
  updatedAt := env.now
  mfaLastUsedStep := none

/-- `INSERT INTO identities … RETURNING`: lengths, the mobile pair, then the unique indexes. -/
def insertIdentity (env : SqlEnv) (db : Db)
    (email mobile countryCode firstName lastName passwordHash : Option String) :
    Except SqlError (Identity × Db) := do
  let email ← varcharOpt 255 email
  let mobile ← varcharOpt 50 mobile
  let countryCode ← varcharOpt 5 countryCode
  let firstName ← varcharOpt 255 firstName
  let lastName ← varcharOpt 255 lastName
  let row := IdentityRow.ofHandles env email mobile countryCode firstName lastName passwordHash
  if mobile.isNone ≠ countryCode.isNone then
    .error (.checkViolation "identities" "identities_mobile_pair")
  else
    match db.identities.insert? row with
    | none => .error (.uniqueViolation "identities_pkey")
    | some identities =>
      if email.any fun e => (db.identities.rows.any (Db.emailIs env e)) then
        .error (.uniqueViolation "uq_identities_email")
      else if mobile.any fun m =>
          countryCode.any fun c => db.identities.rows.any (Db.mobileIs c m) then
        .error (.uniqueViolation "uq_identities_mobile")
      else .ok (row.toIdentity, { db with identities := identities })

/-- A successful insert of an identity: the row fits, its keys were free. -/
theorem insertIdentity_ok {env : SqlEnv} {db db' : Db} {i : Identity}
    {email mobile countryCode firstName lastName passwordHash : Option String}
    (h : insertIdentity env db email mobile countryCode firstName lastName passwordHash =
      .ok (i, db')) :
    ∃ row t, varcharOpt 255 email = .ok row.email ∧ row.id = env.uuid 0 ∧
      row.status = "active" ∧ i = row.toIdentity ∧ db.identities.insert? row = some t ∧
      db' = { db with identities := t } := by
  unfold insertIdentity at h
  simp only [bind_eq_ok] at h
  obtain ⟨email', he, mobile', -, code', -, first', -, last', -, h⟩ := h
  split at h
  · cases h
  · split at h
    · cases h
    · rename_i t ht
      split at h
      · cases h
      · split at h
        · cases h
        · cases h
          exact ⟨_, t, he, rfl, rfl, rfl, ht, rfl⟩

/-- Insert the backup codes of an identity, one row per hash. -/
def insertBackupCodes (env : SqlEnv) (id : Uuid) :
    (n : Nat) → List String → Table BackupCodeRow.id → Except SqlError (Table BackupCodeRow.id)
  | _, [], t => .ok t
  | n, hash :: hashes, t => do
    let hash ← varcharReq 64 hash
    match t.insert? ⟨env.uuid n, id, hash, none⟩ with
    | none => .error (.uniqueViolation "identity_backup_codes_pkey")
    | some t' => insertBackupCodes env id (n + 1) hashes t'

/-- Delete and insert the backup codes of an identity. -/
def replaceBackupCodesTx (env : SqlEnv) (db : Db) (id : Uuid) (hashes : List String) :
    Except SqlError Db := do
  let codes := db.identityBackupCodes.delete fun r => r.identityId = id
  let codes ← insertBackupCodes env id 0 hashes codes
  if hashes ≠ [] ∧ (db.identity id).isNone then
    .error (.foreignKeyViolation "identity_backup_codes" "identity_backup_codes_identity_id_fkey")
  else .ok { db with identityBackupCodes := codes }

theorem replaceBackupCodesTx_ok {env : SqlEnv} {db db' : Db} {id : Uuid} {hashes : List String}
    (h : replaceBackupCodesTx env db id hashes = .ok db') :
    db' = { db with identityBackupCodes := db'.identityBackupCodes } := by
  unfold replaceBackupCodesTx at h
  simp only [bind_eq_ok] at h
  obtain ⟨codes, -, h⟩ := h
  split at h
  · cases h
  · cases h
    rfl

/-- `SET consumed_at = now()`. -/
def BackupCodeRow.consumed (now : Time) (r : BackupCodeRow) : BackupCodeRow :=
  { r with consumedAt := some now }

@[simp] theorem BackupCodeRow.consumed_id (now : Time) (r : BackupCodeRow) :
    (r.consumed now).id = r.id := rfl

/-- The unused backup code a consumption picks. -/
def Db.unusedBackupCode (db : Db) (id : Uuid) (codeHash : String) : Option BackupCodeRow :=
  db.identityBackupCodes.selectOne fun r =>
    r.identityId = id && r.codeHash = codeHash && r.consumedAt.isNone

/-- A statement on identities: its result and the tables after it. -/
def IdentityStmt.exec (env : SqlEnv) (db : Db) :
    (q : IdentityStmt) → Except SqlError (q.Rows × Db)
  | .getById id => .ok ((db.identity id).map IdentityRow.toIdentity, db)
  | .getByEmail email =>
    .ok ((db.identities.selectOne (Db.emailIs env email)).map IdentityRow.toIdentity, db)
  | .getByMobile countryCode mobile =>
    .ok ((db.identities.selectOne (Db.mobileIs countryCode mobile)).map IdentityRow.toIdentity, db)
  | .create email mobile countryCode firstName lastName passwordHash =>
    insertIdentity env db email mobile countryCode firstName lastName passwordHash
  | .updatePassword id passwordHash =>
    .ok (db.identityCount id, db.updateIdentity id (.withPassword env.now passwordHash) fun r =>
      r.withPassword_id _ _)
  | .setForcePasswordChange id value =>
    .ok (db.identityCount id,
      db.updateIdentity id (.withForcePasswordChange env.now value) fun r =>
        r.withForcePasswordChange_id _ _)
  | .incrementFailedAttempts id lockUntil =>
    if db.identities.rows.any fun r => r.id = id && maxInt ≤ r.failedAttempts then
      .error .integerOutOfRange
    else
      .ok (db.identityCount id,
        db.updateIdentity id (.withFailedAttempt env.now lockUntil) fun r =>
          r.withFailedAttempt_id _ _)
  | .clearFailedAttempts id =>
    .ok (db.identityCount id, db.updateIdentity id (.withClearedAttempts env.now) fun r =>
      r.withClearedAttempts_id _)
  | .setStatus id status => do
    let status ← varcharReq 50 status
    .ok (db.identityCount id, db.updateIdentity id (.withStatus env.now status) fun r =>
      r.withStatus_id _ _)
  | .existsByEmail email => .ok (db.identities.rows.any (Db.emailIs env email), db)
  | .existsByMobile countryCode mobile =>
    .ok (db.identities.rows.any (Db.mobileIs countryCode mobile), db)
  | .setPendingSecret id encryptedSecret =>
    .ok (db.identityCount id,
      db.updateIdentity id (.withPendingSecret env.now encryptedSecret) fun r =>
        r.withPendingSecret_id _ _)
  | .enable id hashes => do
    let db' ← replaceBackupCodesTx env
      (db.updateIdentity id (.withMfaEnabled env.now) fun r => r.withMfaEnabled_id _) id hashes
    .ok (db.identityCount id, db')
  | .disable id =>
    .ok (db.identityCount id,
      { db.updateIdentity id (.withMfaDisabled env.now) (fun r => r.withMfaDisabled_id _) with
        identityBackupCodes := db.identityBackupCodes.delete fun r => r.identityId = id })
  | .markStepUsed id step =>
    .ok (db.identities.affected (IdentityRow.acceptsStep id step),
      { db with
        identities :=
          db.identities.update (IdentityRow.acceptsStep id step) (.withUsedStep step)
            fun r => r.withUsedStep_id _ })
  | .replaceBackupCodes id hashes => do
    let db' ← replaceBackupCodesTx env db id hashes
    .ok (hashes.length, db')
  | .consumeBackupCode id codeHash =>
    match db.unusedBackupCode id codeHash with
    | none => .ok ((0 : Nat), db)
    | some code =>
      .ok ((1 : Nat), { db with
        identityBackupCodes :=
          db.identityBackupCodes.update (fun r => r.id = code.id) (.consumed env.now)
            fun r => r.consumed_id _ })
  | .countUnusedBackupCodes id =>
    .ok (db.identityBackupCodes.affected fun r => r.identityId = id && r.consumedAt.isNone, db)

/-- How many ids the statement draws. -/
def IdentityStmt.drawn : IdentityStmt → Nat
  | .create .. => 1
  | .enable _ hashes => hashes.length
  | .replaceBackupCodes _ hashes => hashes.length
  | _ => 0

/-- **A statement on identities** changes at most the identities and their backup codes. -/
theorem IdentityStmt.exec_frame {env : SqlEnv} {db db' : Db} {q : IdentityStmt} {r : q.Rows}
    (h : q.exec env db = .ok (r, db')) :
    db' = { db with
      identities := db'.identities
      identityBackupCodes := db'.identityBackupCodes } := by
  cases q with
  | create =>
    obtain ⟨_, _, -, -, -, -, -, rfl⟩ := insertIdentity_ok h
    rfl
  | incrementFailedAttempts =>
    simp only [exec] at h
    split at h <;> cases h
    rfl
  | setStatus =>
    obtain ⟨_, -, h⟩ := bind_eq_ok.mp h
    cases h
    rfl
  | enable =>
    obtain ⟨_, htx, h⟩ := bind_eq_ok.mp h
    cases h
    rw [replaceBackupCodesTx_ok htx]
    rfl
  | replaceBackupCodes =>
    obtain ⟨_, htx, h⟩ := bind_eq_ok.mp h
    cases h
    rw [replaceBackupCodesTx_ok htx]
  | consumeBackupCode =>
    simp only [exec] at h
    split at h <;> cases h <;> rfl
  | _ =>
    cases h
    rfl

/-! ### Memberships -/

/-- The statements on `users`. -/
inductive MembershipStmt
  | create (id : Uuid) (tenantId : String) (identityId : Uuid) (username : Option String)
      (now : Time)
  | getById (tenantId : String) (userId : Uuid)
  | getMembership (identityId : Uuid) (tenantId : String)
  | getMembershipsForIdentity (identityId : Uuid)
  | getByEmail (tenantId email : String)
  | getByEmailInsensitive (tenantId email : String)
  | getByUsername (tenantId username : String)
  | setAccessValidUntil (tenantId : String) (userId : Uuid) (accessValidUntil : Option Time)
  | archive (tenantId : String) (userId : Uuid)
  | existsByUsername (tenantId username : String)

/-- What the statement returns: rows, or the number of rows it touched. -/
@[reducible] def MembershipStmt.Rows : MembershipStmt → Type
  | .getById .. => Option User
  | .getMembership .. => Option User
  | .getMembershipsForIdentity _ => List User
  | .getByEmail .. => Option User
  | .getByEmailInsensitive .. => Option User
  | .getByUsername .. => Option User
  | .existsByUsername .. => Bool
  | _ => Nat

namespace Db

/-- `FROM users u JOIN identities i ON i.id = u.identity_id`. -/
def memberships (db : Db) : List User :=
  db.users.rows.filterMap fun u =>
    (db.identity u.identityId).map fun i => User.ofRows u i.toIdentity

theorem mem_memberships {db : Db} {x : User} :
    x ∈ db.memberships ↔
      ∃ u ∈ db.users, ∃ i, db.identity u.identityId = some i ∧ User.ofRows u i.toIdentity = x := by
  simp [memberships, Table.mem_def]

/-- The membership with an id in a tenant, as a lookup finds it. -/
theorem find_membership {db : Db} {tenantId : String} {userId : Uuid} {x : User} :
    (db.memberships.find? fun u => u.tenantId = tenantId && u.id = userId) = some x ↔
      ∃ u ∈ db.users, u.tenantId = tenantId ∧ u.id = userId ∧
        ∃ i, db.identity u.identityId = some i ∧ User.ofRows u i.toIdentity = x := by
  constructor
  · intro h
    obtain ⟨u, hu, i, hi, rfl⟩ := mem_memberships.mp (List.mem_of_find?_eq_some h)
    have hp := List.find?_some h
    simp only [User.ofRows_tenantId, User.ofRows_id, Bool.and_eq_true, decide_eq_true_eq] at hp
    exact ⟨u, hu, hp.1, hp.2, i, hi, rfl⟩
  · rintro ⟨u, hu, ht, hid, i, hi, rfl⟩
    have hmem : User.ofRows u i.toIdentity ∈ db.memberships :=
      mem_memberships.mpr ⟨u, hu, i, hi, rfl⟩
    cases hf : db.memberships.find? fun u => u.tenantId = tenantId && u.id = userId with
    | none =>
      have hnone := List.find?_eq_none.mp hf _ hmem
      simp [ht, hid] at hnone
    | some y =>
      obtain ⟨u', hu', i', hi', rfl⟩ := mem_memberships.mp (List.mem_of_find?_eq_some hf)
      have hp := List.find?_some hf
      simp only [User.ofRows_tenantId, User.ofRows_id, Bool.and_eq_true, decide_eq_true_eq] at hp
      obtain rfl : u' = u := Table.eq_of_key_eq hu' hu (hp.2.trans hid.symm)
      obtain rfl : i' = i := Option.some.inj (hi'.symm.trans hi)
      rfl

/-- The memberships of an identity, counted on the rows. -/
theorem length_filter_memberships {db : Db} {id : Uuid} {i : IdentityRow}
    (hi : db.identity id = some i) (q : String → Bool) :
    (db.memberships.filter fun u => u.identityId = id && q u.status).length =
      db.users.affected fun u => u.identityId = id && q u.status := by
  unfold memberships Table.affected
  induction db.users.rows with
  | nil => rfl
  | cons u us ih =>
    by_cases hid : u.identityId = id
    · by_cases hq : q u.status = true <;> simp [hid, hi, hq, ih]
    · rw [List.countP_cons_of_neg (by simp [hid]), ← ih]
      cases ho : db.identity u.identityId <;> simp [ho, hid]

/-- Whether a tenant exists. -/
def hasTenant (db : Db) (tenantId : String) : Bool :=
  (db.tenants.selectOne fun t => t.id = tenantId).isSome

end Db

/-- `UNIQUE (tenant_id, username)`. -/
def usernameTaken (tenantId : String) (username : Option String) (u : MembershipRow) : Bool :=
  u.tenantId = tenantId && username.any fun n => u.username = some n

/-- `UNIQUE (tenant_id, identity_id)`. -/
def membershipTaken (tenantId : String) (identityId : Uuid) (u : MembershipRow) : Bool :=
  u.tenantId = tenantId && u.identityId = identityId

/-- `INSERT INTO users`: lengths, the unique indexes, then the foreign keys. -/
def insertMembership (db : Db) (id : Uuid) (tenantId : String) (identityId : Uuid)
    (username : Option String) (now : Time) : Except SqlError (Nat × Db) := do
  let tenantId ← varcharReq 255 tenantId
  let username ← varcharOpt 255 username
  match db.users.insert? ⟨id, tenantId, identityId, username, "active", none, now, now⟩ with
  | none => .error (.uniqueViolation "users_pkey")
  | some users =>
    if db.users.rows.any (usernameTaken tenantId username) then
      .error (.uniqueViolation "users_username_unique")
    else if db.users.rows.any (membershipTaken tenantId identityId) then
      .error (.uniqueViolation "users_tenant_identity_unique")
    else if !db.hasTenant tenantId then
      .error (.foreignKeyViolation "users" "users_tenant_id_fkey")
    else if (db.identity identityId).isNone then
      .error (.foreignKeyViolation "users" "users_identity_fk")
    else .ok (1, { db with users := users })

/-- A successful insert of a membership: the row fits, its keys were free, and what it refers to
exists. -/
theorem insertMembership_ok {db db' : Db} {id identityId : Uuid} {tenantId : String}
    {username : Option String} {now : Time} {n : Nat}
    (h : insertMembership db id tenantId identityId username now = .ok (n, db')) :
    ∃ row t, row.id = id ∧ row.identityId = identityId ∧
      varcharReq 255 tenantId = .ok row.tenantId ∧ row.status = "active" ∧
      db.users.insert? row = some t ∧ db' = { db with users := t } := by
  unfold insertMembership at h
  simp only [bind_eq_ok] at h
  obtain ⟨tenantId', ht, username', -, h⟩ := h
  split at h
  · cases h
  · rename_i t hins
    repeat' split at h
    all_goals cases h
    exact ⟨_, t, rfl, rfl, ht, rfl, hins, rfl⟩

/-- `SET access_valid_until = $1`. -/
def MembershipRow.withAccessValidUntil (now : Time) (accessValidUntil : Option Time)
    (u : MembershipRow) : MembershipRow :=
  { u with accessValidUntil := accessValidUntil, updatedAt := now }

@[simp] theorem MembershipRow.withAccessValidUntil_id (now : Time) (t : Option Time)
    (u : MembershipRow) : (u.withAccessValidUntil now t).id = u.id := rfl

@[simp] theorem MembershipRow.withAccessValidUntil_tenantId (now : Time) (t : Option Time)
    (u : MembershipRow) : (u.withAccessValidUntil now t).tenantId = u.tenantId := rfl

/-- `SET status = 'archived'`. -/
def MembershipRow.archived (now : Time) (u : MembershipRow) : MembershipRow :=
  { u with status := "archived", updatedAt := now }

@[simp] theorem MembershipRow.archived_id (now : Time) (u : MembershipRow) :
    (u.archived now).id = u.id := rfl

@[simp] theorem MembershipRow.archived_tenantId (now : Time) (u : MembershipRow) :
    (u.archived now).tenantId = u.tenantId := rfl

/-- A statement on memberships: its result and the tables after it. -/
def MembershipStmt.exec (env : SqlEnv) (db : Db) :
    (q : MembershipStmt) → Except SqlError (q.Rows × Db)
  | .create id tenantId identityId username now =>
    insertMembership db id tenantId identityId username now
  | .getById tenantId userId =>
    .ok (db.memberships.find? fun u => u.tenantId = tenantId && u.id = userId, db)
  | .getMembership identityId tenantId =>
    .ok (db.memberships.find? fun u => u.identityId = identityId && u.tenantId = tenantId, db)
  | .getMembershipsForIdentity identityId =>
    .ok ((db.memberships.filter fun u => u.identityId = identityId && u.status ≠ "archived")
      |>.insertionSort fun a b => a.createdAt ≤ b.createdAt, db)
  | .getByEmail tenantId email =>
    .ok (db.memberships.find? fun u => u.tenantId = tenantId && u.email = some email, db)
  | .getByEmailInsensitive tenantId email =>
    .ok (db.memberships.find? fun u =>
      u.tenantId = tenantId && u.email.any fun e => env.lower e = env.lower email, db)
  | .getByUsername tenantId username =>
    .ok (db.memberships.find? fun u => u.tenantId = tenantId && u.username = some username, db)
  | .setAccessValidUntil tenantId userId accessValidUntil =>
    let chosen : MembershipRow → Bool := fun u => u.tenantId = tenantId && u.id = userId
    .ok (db.users.affected chosen,
      { db with
        users :=
          db.users.update chosen (.withAccessValidUntil env.now accessValidUntil) fun u =>
            u.withAccessValidUntil_id _ _ })
  | .archive tenantId userId =>
    let chosen : MembershipRow → Bool := fun u =>
      u.tenantId = tenantId && u.id = userId && u.status ≠ "archived"
    .ok (db.users.affected chosen,
      { db with users := db.users.update chosen (.archived env.now) fun u => u.archived_id _ })
  | .existsByUsername tenantId username =>
    .ok (db.users.rows.any fun u => u.tenantId = tenantId && u.username = some username, db)

/-- **A statement on memberships** changes at most the memberships. -/
theorem MembershipStmt.exec_frame {env : SqlEnv} {db db' : Db} {q : MembershipStmt} {r : q.Rows}
    (h : q.exec env db = .ok (r, db')) : db' = { db with users := db'.users } := by
  cases q with
  | create =>
    obtain ⟨_, _, -, -, -, -, -, rfl⟩ := insertMembership_ok h
    rfl
  | _ =>
    cases h
    rfl

end Authrs
