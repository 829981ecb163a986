import Authrs.Repo.Accounts

/-!
# The repository of one-time codes

`OtpRepo`. The routes turn every database error of these methods into an internal error.

## Main definitions

* `OtpRepo.*`: the methods
-/

namespace Authrs

open Interaction

namespace OtpRepo

/-- A statement, with `map_err(|e| AppError::Internal(e.to_string()))?` on its result. -/
def run (q : OtpStmt) : Service q.Rows := do
  let r : Except SqlError q.Rows ← Program.request (I := authrs) (Request.sql (.otps q))
  Service.ofResult (r.mapError fun e => .internal e.display)

/-- Insert a new OTP code. Identifier is email for channel=email. -/
def create (tenantId identifier channel code purpose : String) (expiresAt : Time) :
    Service Uuid := do
  let id ← newUuid
  let _ ← run (.create id tenantId identifier channel code purpose expiresAt)
  pure id

/-- Fetch the latest valid OTP for verify. -/
def getLatest (tenantId identifier channel purpose : String) : Service (Option OtpRow) :=
  run (.getLatest tenantId identifier channel purpose)

def incrementAttempts (id : Uuid) : Service Unit := do
  let _ ← run (.incrementAttempts id)
  pure ()

/-- Remove OTP after successful use (one-time use). -/
def delete (id : Uuid) : Service Unit := do
  let _ ← run (.delete id)
  pure ()

/-- The exchange of a statement whose result is used. -/
theorem keeps_run_ok {C : Contract authrs} {h : List (Event authrs)} {q : OtpStmt}
    (hq : ∀ e : Event authrs, e.request = .sql (.otps q) → C.guarantee h e) :
    (run q).Keeps C (Program.OnOk fun r h' => h' = did (.otps q) r :: h) h := by
  intro r _
  refine ⟨hq _ rfl, ?_⟩
  cases r with
  | error e => trivial
  | ok a => exact rfl

end OtpRepo

end Authrs
