import Authrs.Store.Sessions

/-!
# Statements on one-time codes

The SQL statements about `otp_codes`. Every request adds a row; a lookup reads the newest row that
has not expired, so that a row comes to the fore again once the newer ones are gone.

## Main definitions

* `OtpStmt`: the statements, with their `exec`
* `Db.latestOtp`: the row that a lookup reads

## Main results

* `insertOtp_ok`: what a successful insert has done
* `OtpStmt.exec_frame`: what a statement leaves alone
-/

namespace Authrs

open Relational

/-- The statements on `otp_codes`. -/
inductive OtpStmt
  | create (id : Uuid) (tenantId identifier channel code purpose : String) (expiresAt : Time)
  | getLatest (tenantId identifier channel purpose : String)
  | incrementAttempts (id : Uuid)
  | delete (id : Uuid)

/-- What the statement returns: rows, or the number of rows it touched. -/
@[reducible] def OtpStmt.Rows : OtpStmt → Type
  | .getLatest .. => Option OtpRow
  | _ => Nat

/-- `SET attempt_count = attempt_count + 1`. -/
def OtpRow.withAttempt (r : OtpRow) : OtpRow :=
  { r with attemptCount := r.attemptCount + 1 }

@[simp] theorem OtpRow.withAttempt_id (r : OtpRow) : r.withAttempt.id = r.id := rfl

/-- Whether a row is for an identifier: regardless of case for `channel = 'email'`. -/
def OtpRow.isFor (lower : String → String) (tenantId identifier channel purpose : String)
    (r : OtpRow) : Bool :=
  r.tenantId = tenantId &&
    (if channel = "email" then lower r.identifier = lower identifier
      else r.identifier = identifier) &&
    r.channel = channel && r.purpose = purpose

/-- `WHERE … AND expires_at > now() ORDER BY created_at DESC LIMIT 1`. -/
def Db.latestOtp (env : SqlEnv) (db : Db) (tenantId identifier channel purpose : String) :
    Option OtpRow :=
  (db.otpCodes.select fun r =>
    r.isFor env.lower tenantId identifier channel purpose && env.now < r.expiresAt).maxOn?
      OtpRow.createdAt

/-- `CHECK (channel IN ('email', 'sms', 'whatsapp'))`. -/
def OTP_CHANNELS : List String := ["email", "sms", "whatsapp"]

/-- `INSERT INTO otp_codes`. -/
def insertOtp (env : SqlEnv) (db : Db) (id : Uuid)
    (tenantId identifier channel code purpose : String) (expiresAt : Time) :
    Except SqlError (Nat × Db) := do
  let tenantId ← varcharReq 255 tenantId
  let identifier ← varcharReq 255 identifier
  let channel ← varcharReq 20 channel
  let code ← varcharReq 10 code
  let purpose ← varcharReq 50 purpose
  if channel ∉ OTP_CHANNELS then
    .error (.checkViolation "otp_codes" "otp_codes_channel_check")
  else
    match db.otpCodes.insert?
        ⟨id, tenantId, identifier, channel, code, purpose, expiresAt, 0, env.now⟩ with
    | none => .error (.uniqueViolation "otp_codes_pkey")
    | some otps =>
      if !db.hasTenant tenantId then
        .error (.foreignKeyViolation "otp_codes" "otp_codes_tenant_id_fkey")
      else .ok (1, { db with otpCodes := otps })

theorem insertOtp_ok {env : SqlEnv} {db db' : Db} {id : Uuid}
    {tenantId identifier channel code purpose : String} {expiresAt : Time} {n : Nat}
    (h : insertOtp env db id tenantId identifier channel code purpose expiresAt = .ok (n, db')) :
    ∃ row t, row.id = id ∧ row.attemptCount = 0 ∧ db.otpCodes.insert? row = some t ∧
      db' = { db with otpCodes := t } := by
  unfold insertOtp at h
  simp only [bind_eq_ok] at h
  obtain ⟨_, -, _, -, _, -, _, -, _, -, h⟩ := h
  split at h
  · cases h
  · split at h
    · cases h
    · rename_i t hins
      split at h <;> cases h
      exact ⟨_, t, rfl, rfl, hins, rfl⟩

/-- A statement on one-time codes: its result and the tables after it. -/
def OtpStmt.exec (env : SqlEnv) (db : Db) : (q : OtpStmt) → Except SqlError (q.Rows × Db)
  | .create id tenantId identifier channel code purpose expiresAt =>
    insertOtp env db id tenantId identifier channel code purpose expiresAt
  | .getLatest tenantId identifier channel purpose =>
    .ok (db.latestOtp env tenantId identifier channel purpose, db)
  | .incrementAttempts id =>
    if db.otpCodes.rows.any fun r => r.id = id && maxInt ≤ r.attemptCount then
      .error .integerOutOfRange
    else
      .ok (db.otpCodes.affected fun r => r.id = id,
        { db with
          otpCodes :=
            db.otpCodes.update (fun r => r.id = id) OtpRow.withAttempt OtpRow.withAttempt_id })
  | .delete id =>
    .ok (db.otpCodes.affected fun r => r.id = id,
      { db with otpCodes := db.otpCodes.delete fun r => r.id = id })

/-- **A statement on one-time codes** changes at most these. -/
theorem OtpStmt.exec_frame {env : SqlEnv} {db db' : Db} {q : OtpStmt} {r : q.Rows}
    (h : q.exec env db = .ok (r, db')) : db' = { db with otpCodes := db'.otpCodes } := by
  cases q with
  | create =>
    obtain ⟨_, _, -, -, -, rfl⟩ := insertOtp_ok h
    rfl
  | incrementAttempts =>
    simp only [exec] at h
    split at h <;> cases h
    rfl
  | _ =>
    cases h
    rfl

/-- The row that a lookup reads is a matching one that has not expired. -/
theorem Db.latestOtp_mem {env : SqlEnv} {db : Db} {tenantId identifier channel purpose : String}
    {r : OtpRow} (h : db.latestOtp env tenantId identifier channel purpose = some r) :
    r ∈ db.otpCodes ∧ r.isFor env.lower tenantId identifier channel purpose = true ∧
      env.now < r.expiresAt := by
  obtain ⟨hmem, hp⟩ := Table.mem_select.mp (List.maxOn?_mem h)
  rw [Bool.and_eq_true] at hp
  exact ⟨hmem, hp.1, of_decide_eq_true hp.2⟩

end Authrs
