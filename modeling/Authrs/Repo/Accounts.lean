import Authrs.Store.Interface

/-!
# Repositories of identities, memberships and MFA

`IdentitiesRepo`, `UsersRepo` and `MfaRepo`: each method is the statements it sends, in order.

## Main definitions

* `IdentitiesRepo.*`, `UsersRepo.*`, `MfaRepo.*`: the methods

## Main results

* `IdentitiesRepo.exec_*`, `UsersRepo.exec_*`: the methods run alone
-/

namespace Authrs

open Interaction

/-- A statement whose number of touched rows is ignored. -/
def execute (q : Sql) : Service Unit := do
  let _ ← query q
  pure ()

theorem exec_execute_db {w : World} {s : State} {R : Db → Prop} {db : Db} {q : Sql} (h0 : R db)
    (hs : s.db = db) (h : ∀ r db', q.exec (s.sqlEnv w) db = .ok (r, db') → R db') :
    R ((execute q).exec (handle w) s).2.db := by
  rw [execute, Program.bind_eq, Program.pure_eq, exec_bind_pure_db]
  exact exec_query_db h0 hs h

/-- A statement that succeeded is the newest exchange. -/
theorem keeps_execute_ok {C : Contract authrs} {h : List (Event authrs)} {q : Sql}
    (hq : ∀ e : Event authrs, e.request = .sql q → C.guarantee h e) :
    (execute q).Keeps C (Program.OnOk fun _ h' => ∃ r, h' = did q r :: h) h :=
  (keeps_query_ok hq).bind_ok fun r _ _ hh => ⟨r, hh⟩

namespace IdentitiesRepo

def getById (id : Uuid) : Service (Option Identity) :=
  query (.identities (.getById id))

/-- Global, case-insensitive email lookup. -/
def getByEmail (email : String) : Service (Option Identity) :=
  query (.identities (.getByEmail email))

def getByMobile (countryCode mobile : String) : Service (Option Identity) :=
  query (.identities (.getByMobile countryCode mobile))

def create (email mobile countryCode firstName lastName passwordHash : Option String) :
    Service Identity :=
  query (.identities (.create email mobile countryCode firstName lastName passwordHash))

/-- Set the shared password hash and clear the force-change flag. -/
def updatePassword (id : Uuid) (passwordHash : String) : Service Unit :=
  execute (.identities (.updatePassword id passwordHash))

def setForcePasswordChange (id : Uuid) (value : Bool) : Service Unit :=
  execute (.identities (.setForcePasswordChange id value))

def incrementFailedAttempts (id : Uuid) (lockUntil : Option Time) : Service Unit :=
  execute (.identities (.incrementFailedAttempts id lockUntil))

def clearFailedAttempts (id : Uuid) : Service Unit :=
  execute (.identities (.clearFailedAttempts id))

def setStatus (id : Uuid) (status : String) : Service Unit :=
  execute (.identities (.setStatus id status))

def existsByEmail (email : String) : Service Bool :=
  query (.identities (.existsByEmail email))

def existsByMobile (countryCode mobile : String) : Service Bool :=
  query (.identities (.existsByMobile countryCode mobile))

section Alone

variable (w : World) (s : State) (id : Uuid)

@[simp] theorem exec_getById :
    (getById id).exec (handle w) s = (.ok ((s.db.identity id).map IdentityRow.toIdentity), s) :=
  rfl

@[simp] theorem exec_updatePassword (passwordHash : String) :
    (updatePassword id passwordHash).exec (handle w) s =
      (.ok (), { s with
        db := s.db.updateIdentity id (.withPassword s.now passwordHash) fun r =>
          r.withPassword_id _ _ }) :=
  rfl

@[simp] theorem exec_setForcePasswordChange (value : Bool) :
    (setForcePasswordChange id value).exec (handle w) s =
      (.ok (), { s with
        db := s.db.updateIdentity id (.withForcePasswordChange s.now value) fun r =>
          r.withForcePasswordChange_id _ _ }) :=
  rfl

@[simp] theorem exec_clearFailedAttempts :
    (clearFailedAttempts id).exec (handle w) s =
      (.ok (), { s with
        db := s.db.updateIdentity id (.withClearedAttempts s.now) fun r =>
          r.withClearedAttempts_id _ }) :=
  rfl

end Alone

end IdentitiesRepo

namespace UsersRepo

/-- Create a membership row linking an identity to a tenant. -/
def create (identity : Identity) (tenantId : String) (username : Option String) :
    Service User := do
  let id ← newUuid
  let now ← utcNow
  execute (.users (.create id tenantId identity.id username now))
  pure {
    id := id
    tenantId := tenantId
    identityId := identity.id
    firstName := identity.firstName
    lastName := identity.lastName
    email := identity.email
    username := username
    mobile := identity.mobile
    countryCode := identity.countryCode
    status := "active"
    mfaEnabled := identity.mfaEnabled
    accessValidUntil := none
    createdAt := now
    updatedAt := now }

def archive (tenantId : String) (userId : Uuid) : Service Bool := do
  let touched : Nat ← query (.users (.archive tenantId userId))
  pure (decide (0 < touched))

def getById (tenantId : String) (userId : Uuid) : Service (Option User) :=
  query (.users (.getById tenantId userId))

/-- The single membership of an identity within a tenant. -/
def getMembership (identityId : Uuid) (tenantId : String) : Service (Option User) :=
  query (.users (.getMembership identityId tenantId))

/-- All memberships of an identity across tenants, the archived ones apart. -/
def getMembershipsForIdentity (identityId : Uuid) : Service (List User) :=
  query (.users (.getMembershipsForIdentity identityId))

def getByEmail (tenantId email : String) : Service (Option User) :=
  query (.users (.getByEmail tenantId email))

def getByEmailInsensitive (tenantId email : String) : Service (Option User) :=
  query (.users (.getByEmailInsensitive tenantId email))

def getByUsername (tenantId username : String) : Service (Option User) :=
  query (.users (.getByUsername tenantId username))

def setAccessValidUntil (tenantId : String) (userId : Uuid) (accessValidUntil : Option Time) :
    Service Unit :=
  execute (.users (.setAccessValidUntil tenantId userId accessValidUntil))

def existsByUsername (tenantId username : String) : Service Bool :=
  query (.users (.existsByUsername tenantId username))

section Alone

variable (w : World) (s : State)

@[simp] theorem exec_getById (tenantId : String) (userId : Uuid) :
    (getById tenantId userId).exec (handle w) s =
      (.ok (s.db.memberships.find? fun u => u.tenantId = tenantId && u.id = userId), s) :=
  rfl

@[simp] theorem exec_getMembership (identityId : Uuid) (tenantId : String) :
    (getMembership identityId tenantId).exec (handle w) s =
      (.ok (s.db.memberships.find? fun u =>
        u.identityId = identityId && u.tenantId = tenantId), s) :=
  rfl

@[simp] theorem exec_getMembershipsForIdentity (identityId : Uuid) :
    (getMembershipsForIdentity identityId).exec (handle w) s =
      (.ok ((s.db.memberships.filter fun u =>
        u.identityId = identityId && u.status ≠ "archived").insertionSort
          fun a b => a.createdAt ≤ b.createdAt), s) :=
  rfl

end Alone

end UsersRepo

namespace MfaRepo

/-- Store a not-yet-confirmed secret. MFA stays disabled. -/
def setPendingSecret (identityId : Uuid) (encryptedSecret : String) : Service Unit :=
  execute (.identities (.setPendingSecret identityId encryptedSecret))

/-- Turn MFA on and replace the backup codes, atomically. -/
def enable (identityId : Uuid) (hashes : List String) : Service Unit :=
  execute (.identities (.enable identityId hashes))

/-- Turn MFA off: clear the secret, replay marker and backup codes. -/
def disable (identityId : Uuid) : Service Unit :=
  execute (.identities (.disable identityId))

/-- Record a TOTP step as used; false if this step or a later one was already accepted. -/
def markStepUsed (identityId : Uuid) (step : Nat) : Service Bool := do
  let touched : Nat ← query (.identities (.markStepUsed identityId step))
  pure (decide (touched = 1))

def replaceBackupCodes (identityId : Uuid) (hashes : List String) : Service Unit :=
  execute (.identities (.replaceBackupCodes identityId hashes))

/-- Consume an unused backup code; true if one matched. -/
def consumeBackupCode (identityId : Uuid) (codeHash : String) : Service Bool := do
  let touched : Nat ← query (.identities (.consumeBackupCode identityId codeHash))
  pure (decide (touched = 1))

def countUnusedBackupCodes (identityId : Uuid) : Service Nat :=
  query (.identities (.countUnusedBackupCodes identityId))

def createChallenge (token tenantId : String) (userId : Uuid) (expiresAt : Time) :
    Service Unit := do
  execute (.challenges .deleteExpired)
  execute (.challenges (.insert token tenantId userId expiresAt))

def getChallenge (token : String) : Service (Option MfaChallenge) :=
  query (.challenges (.get token))

def incrementChallengeAttempts (token : String) : Service Unit :=
  execute (.challenges (.incrementAttempts token))

/-- Delete a challenge; false if it was already redeemed (concurrent use). -/
def deleteChallenge (token : String) : Service Bool := do
  let touched : Nat ← query (.challenges (.delete token))
  pure (decide (touched = 1))

end MfaRepo

end Authrs
