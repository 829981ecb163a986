import Authrs.Base.Error
import Authrs.Relational.Distinct
import Authrs.Store.Schema
import Mathlib.Data.List.Dedup
import Mathlib.Data.Prod.Lex
import Mathlib.Order.WithBot

/-!
# The backfill of identities

Migrations 15 to 17 take the credentials out of the users of a tenant: they create the identities,
fill them from the users that share a handle, link each user to its identity, and then demand one
membership per identity and tenant. The audit that has to be clean before they run looks for handles
that occur in more than one tenant.

What is here is read off the SQL: one definition per statement, and the order of the statements in
`backfill` and `constrain`. The handles and the profile of an identity come from columns of the same
types, so that no value is cut off. `lower`, the identifiers that the database generates and the time
of the migration are parameters.

## Main definitions

* `UserRow`, `LinkedUser`: a user before the migrations, and with its identity
* `UsersValid`: the constraints in force before them
* `conflictingEmails`, `conflictingMobiles`: the audit
* `Migrating.insert`: an identity is inserted, under the checks of migration 15
* `backfill`: migration 16
* `constrain`: migration 17
* `migrate`: the three migrations
-/

namespace Authrs

open Relational

/-- A row of `users` before the migrations. -/
structure UserRow where
  id : Uuid
  tenantId : String
  firstName : Option String
  lastName : Option String
  email : Option String
  username : Option String
  mobile : Option String
  countryCode : Option String
  passwordHash : Option String
  mfaEnabled : Bool
  failedAttempts : Nat
  lockedUntil : Option Time
  updatedAt : Time
  deriving DecidableEq

/-- A row of `users` with the column of migration 15. -/
structure LinkedUser extends UserRow where
  identityId : Option Uuid
  deriving DecidableEq

/-- The table `users` before the migrations. -/
abbrev UserTable : Type := Table UserRow.id

/-! ### Before the migrations -/

/-- **The constraints of the table** before the migrations. -/
structure UsersValid (users : UserTable) : Prop where
  identityCheck : ∀ u ∈ users,
    u.email ≠ none ∨ u.mobile ≠ none ∧ u.countryCode ≠ none ∨ u.username ≠ none
  emailUnique : ∀ u ∈ users, ∀ v ∈ users,
    u.tenantId = v.tenantId → u.email ≠ none → u.email = v.email → u = v
  usernameUnique : ∀ u ∈ users, ∀ v ∈ users,
    u.tenantId = v.tenantId → u.username ≠ none → u.username = v.username → u = v
  mobileUnique : ∀ u ∈ users, ∀ v ∈ users, u.tenantId = v.tenantId → u.mobile ≠ none →
    u.countryCode ≠ none → u.mobile = v.mobile → u.countryCode = v.countryCode → u = v

set_option synthInstance.maxSize 400 in
instance UsersValid.decidable (users : UserTable) : Decidable (UsersValid users) :=
  decidable_of_iff
    ((∀ u ∈ users.rows,
        u.email ≠ none ∨ u.mobile ≠ none ∧ u.countryCode ≠ none ∨ u.username ≠ none) ∧
      (∀ u ∈ users.rows, ∀ v ∈ users.rows,
        u.tenantId = v.tenantId → u.email ≠ none → u.email = v.email → u = v) ∧
      (∀ u ∈ users.rows, ∀ v ∈ users.rows,
        u.tenantId = v.tenantId → u.username ≠ none → u.username = v.username → u = v) ∧
      ∀ u ∈ users.rows, ∀ v ∈ users.rows, u.tenantId = v.tenantId → u.mobile ≠ none →
        u.countryCode ≠ none → u.mobile = v.mobile → u.countryCode = v.countryCode → u = v)
    ⟨fun ⟨hcheck, hemail, husername, hmobile⟩ => ⟨hcheck, hemail, husername, hmobile⟩,
      fun h => ⟨h.identityCheck, h.emailUnique, h.usernameUnique, h.mobileUnique⟩⟩

/-- `count(DISTINCT tenant_id)`. -/
def tenantCount (us : List UserRow) : Nat := (us.map UserRow.tenantId).dedup.length

/-- The first part of the audit: emails in more than one tenant, up to case. -/
def conflictingEmails (lower : String → String) (users : UserTable) : List String :=
  (users.rows.filterMap fun u => u.email.map lower).dedup.filter fun e =>
    1 < tenantCount (users.select fun u => u.email.map lower = some e)

/-- The second part: mobile numbers in more than one tenant. -/
def conflictingMobiles (users : UserTable) : List (Option String × String) :=
  (users.rows.filterMap fun u => u.mobile.map fun m => (u.countryCode, m)).dedup.filter fun k =>
    1 < tenantCount (users.select fun u => u.countryCode = k.1 && u.mobile = some k.2)

/-- **The audit reports no conflict.** -/
def AuditClean (lower : String → String) (users : UserTable) : Prop :=
  conflictingEmails lower users = [] ∧ conflictingMobiles users = []

/-! ### Migration 15: the tables -/

/-- Why a migration fails. -/
inductive MigrationError
  | sql (e : SqlError)
  | notNullViolation (relation column : String)
  | raised (message : String)
  deriving DecidableEq

/-- The tables while the migrations run, and the number of identifiers generated. -/
structure Migrating where
  users : Table fun u : LinkedUser => u.id
  identities : Table Identity.id
  drawn : Nat

/-- `ALTER TABLE users ADD COLUMN identity_id`. -/
def UserTable.addIdentityId (users : UserTable) : Table fun u : LinkedUser => u.id where
  rows := users.rows.map fun u => ⟨u, none⟩
  nodup := by
    rw [List.map_map]
    exact users.nodup

/-- The key of `uq_identities_email`. -/
def sameEmail (lower : String → String) (i j : Identity) : Bool :=
  match i.email, j.email with
  | some e, some e' => lower e = lower e'
  | _, _ => false

/-- The key of `uq_identities_mobile`. -/
def sameMobile (i j : Identity) : Bool :=
  i.mobile.isSome && i.countryCode.isSome && i.mobile = j.mobile && i.countryCode = j.countryCode

section Statements

variable (lower : String → String) (newId : Nat → Uuid) (now : Time)

/-- `INSERT INTO identities`, with a new identifier: the mobile pair, then the unique indexes. -/
def Migrating.insert (b : Migrating) (row : Uuid → Identity) : Except MigrationError Migrating :=
  if (row (newId b.drawn)).mobile.isNone ≠ (row (newId b.drawn)).countryCode.isNone then
    .error (.sql (.checkViolation "identities" "identities_mobile_pair"))
  else
    match b.identities.insert? (row (newId b.drawn)) with
    | none => .error (.sql (.uniqueViolation "identities_pkey"))
    | some identities =>
      if b.identities.rows.any (sameEmail lower (row (newId b.drawn))) then
        .error (.sql (.uniqueViolation "uq_identities_email"))
      else if b.identities.rows.any (sameMobile (row (newId b.drawn))) then
        .error (.sql (.uniqueViolation "uq_identities_mobile"))
      else .ok { b with identities := identities, drawn := b.drawn + 1 }

/-! ### Migration 16: the statements -/

/-- The profile and the credential of a user, under handles, with the defaults of the other columns. -/
def UserRow.identity (u : UserRow) (email mobile countryCode : Option String) (id : Uuid) :
    Identity where
  id := id
  email := email
  mobile := mobile
  countryCode := countryCode
  firstName := u.firstName
  lastName := u.lastName
  passwordHash := u.passwordHash
  mfaEnabled := u.mfaEnabled
  mfaSecret := none
  forcePasswordChange := false
  failedAttempts := u.failedAttempts
  lockedUntil := u.lockedUntil
  status := "active"
  createdAt := now
  updatedAt := now

/-- `SELECT DISTINCT ON (lower(email)) … WHERE email IS NOT NULL
ORDER BY lower(email), updated_at DESC`. -/
def selectEmails (us : List UserRow) : List UserRow :=
  distinctBy (fun u => (u.email.map lower).getD "") <|
    sortBy (fun u => -u.updatedAt) (us.filter fun u => u.email.isSome)

/-- The order of `country_code, mobile`, with `NULL` last. -/
def mobileKey (u : UserRow) : WithTop String ×ₗ String :=
  toLex (match u.countryCode with
    | some c => (c : WithTop String)
    | none => ⊤, u.mobile.getD "")

/-- `SELECT DISTINCT ON (country_code, mobile) … WHERE email IS NULL AND mobile IS NOT NULL
ORDER BY country_code, mobile, updated_at DESC`. -/
def selectMobiles (us : List UserRow) : List UserRow :=
  distinctBy mobileKey <|
    sortBy (fun u => -u.updatedAt) (us.filter fun u => u.email.isNone && u.mobile.isSome)

/-- `INSERT INTO identities … SELECT`. -/
def Migrating.insertAll (b : Migrating) (row : UserRow → Uuid → Identity) (us : List UserRow) :
    Except MigrationError Migrating :=
  us.foldlM (fun b u => b.insert lower newId (row u)) b

/-- A user after the update, with an identity it joins. -/
def LinkedUser.joined (identities : Table Identity.id) (joins : LinkedUser → Identity → Bool)
    (u : LinkedUser) : LinkedUser :=
  match identities.selectOne (joins u) with
  | some i => { u with identityId := some i.id }
  | none => u

theorem LinkedUser.joined_toUserRow (identities : Table Identity.id)
    (joins : LinkedUser → Identity → Bool) (u : LinkedUser) :
    (u.joined identities joins).toUserRow = u.toUserRow := by
  unfold joined
  split <;> rfl

/-- `UPDATE users SET identity_id = i.id FROM identities i WHERE`. -/
def Migrating.link (b : Migrating) (joins : LinkedUser → Identity → Bool) : Migrating :=
  { b with
    users := b.users.update (fun _ => true) (LinkedUser.joined b.identities joins) fun u =>
      congrArg UserRow.id (u.joined_toUserRow b.identities joins) }

theorem Migrating.mem_link {b : Migrating} {joins : LinkedUser → Identity → Bool} {v : LinkedUser} :
    v ∈ (b.link joins).users ↔ ∃ u ∈ b.users, u.joined b.identities joins = v := by
  have hmem := @Table.mem_update _ _ _ b.users v (fun _ => true) (LinkedUser.joined b.identities joins)
    fun u => congrArg UserRow.id (u.joined_toUserRow b.identities joins)
  simp only [if_true] at hmem
  exact hmem

def joinsEmail (u : LinkedUser) (i : Identity) : Bool :=
  match u.email, i.email with
  | some e, some e' => lower e' = lower e
  | _, _ => false

def joinsMobile (u : LinkedUser) (i : Identity) : Bool :=
  u.identityId.isNone && u.email.isNone && u.mobile.isSome && i.email.isNone && i.mobile.isSome &&
    u.countryCode.isSome && i.countryCode = u.countryCode && i.mobile = u.mobile

/-- `count(DISTINCT password_hash)`. -/
def hashCount (us : List LinkedUser) : Nat := (us.filterMap fun u => u.passwordHash).dedup.length

def Identity.withReset (i : Identity) : Identity := { i with forcePasswordChange := true }

/-- `UPDATE identities SET force_password_change = true WHERE`. -/
def Migrating.forceReset (b : Migrating) (chosen : Identity → Bool) : Migrating :=
  { b with identities := b.identities.update chosen Identity.withReset fun _ => rfl }

theorem Migrating.mem_forceReset {b : Migrating} {chosen : Identity → Bool} {j : Identity} :
    j ∈ (b.forceReset chosen).identities ↔
      ∃ i ∈ b.identities, (if chosen i then i.withReset else i) = j :=
  @Table.mem_update _ _ _ b.identities j chosen Identity.withReset fun _ => rfl

/-- A collapsed email spanned more than one password hash. -/
def emailSpans (us : List LinkedUser) (i : Identity) : Bool :=
  i.email.any fun e => 1 < hashCount (us.filter fun u => u.email.map lower = some (lower e))

/-- A collapsed mobile-only handle spanned more than one password hash. -/
def mobileSpans (us : List LinkedUser) (i : Identity) : Bool :=
  i.email.isNone && i.mobile.isSome && 1 < hashCount (us.filter fun u =>
    u.email.isNone && u.mobile = i.mobile && u.countryCode = i.countryCode)

def LinkedUser.linkedTo (k : Uuid) (u : LinkedUser) : LinkedUser := { u with identityId := some k }

/-- One turn of the loop over the username-only users. -/
def Migrating.addLocal (b : Migrating) (u : UserRow) : Except MigrationError Migrating := do
  let b' ← b.insert lower newId (u.identity now none none none)
  .ok { b' with
    users := b'.users.update (fun v => v.id = u.id) (LinkedUser.linkedTo (newId b.drawn))
      fun _ => rfl }

/-- The users that the loop is over. -/
def Migrating.locals (b : Migrating) : List UserRow :=
  (b.users.select fun u => u.identityId.isNone && u.email.isNone && u.mobile.isNone).map
    LinkedUser.toUserRow

/-- The last block: every user row must now have an identity. -/
def Migrating.ensureLinked (b : Migrating) : Except MigrationError Migrating :=
  match b.users.affected fun u => u.identityId.isNone with
  | 0 => .ok b
  | orphans + 1 => .error (.raised
      ("Backfill incomplete: " ++ toString (orphans + 1) ++ " users have NULL identity_id"))

/-- The users, without the link. -/
def Migrating.userRows (b : Migrating) : List UserRow := b.users.rows.map LinkedUser.toUserRow

/-- What follows the insert of A): the links, and the resets of A.1). -/
def Migrating.linkEmails (b : Migrating) : Migrating :=
  let b := b.link (joinsEmail lower)
  b.forceReset (emailSpans lower b.users.rows)

/-- What follows the insert of B): the links, and the resets of B.1). -/
def Migrating.linkMobiles (b : Migrating) : Migrating :=
  let b := b.link joinsMobile
  b.forceReset (mobileSpans b.users.rows)

/-- **Migration 16.** -/
def backfill (b : Migrating) : Except MigrationError Migrating := do
  -- A) one identity per distinct email
  let b ← b.insertAll lower newId (fun u => u.identity now u.email u.mobile u.countryCode)
    (selectEmails lower b.userRows)
  let b := b.linkEmails lower
  -- B) one identity per distinct mobile among the users without an email
  let b ← b.insertAll lower newId (fun u => u.identity now none u.mobile u.countryCode)
    (selectMobiles b.userRows)
  let b := b.linkMobiles
  -- C) one local identity for each user without either
  let b ← b.locals.foldlM (fun b u => b.addLocal lower newId now u) b
  b.ensureLinked

/-! ### Migration 17 -/

/-- **Migration 17**: the foreign key, `NOT NULL`, and one membership per identity and tenant. -/
def constrain (b : Migrating) : Except MigrationError Migrating :=
  if b.users.rows.any fun u => u.identityId.any fun k =>
      !b.identities.rows.any fun i => i.id = k then
    .error (.sql (.foreignKeyViolation "users" "users_identity_fk"))
  else if b.users.rows.any fun u => u.identityId.isNone then
    .error (.notNullViolation "users" "identity_id")
  else if (b.users.rows.map fun u => (u.tenantId, u.identityId)).Nodup then .ok b
  else .error (.sql (.uniqueViolation "users_tenant_identity_unique"))

/-- **The three migrations.** -/
def migrate (users : UserTable) : Except MigrationError Migrating := do
  let b ← backfill lower newId now ⟨users.addIdentityId, ∅, 0⟩
  constrain b

end Statements

end Authrs
