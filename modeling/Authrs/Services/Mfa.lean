import Authrs.Services.Session

/-!
# The MFA service

TOTP and backup codes. A TOTP code is accepted for a time step within one step of the present
that is later than the last accepted one; a backup code is consumed.

## Main definitions

* `normalizeCode`, `isTotpCode`, `matchingStep`: the codes
* `MfaService.verify`: check a second-factor code
* `MfaService.beginEnrollment`, `confirmEnrollment`, `disable`, `regenerateBackupCodes`
-/

namespace Authrs

open Interaction

/-- Digits of a TOTP code, its period, and the accepted skew in periods. -/
def TOTP_DIGITS : Nat := 6
def TOTP_STEP_SECS : Nat := 30
def TOTP_SKEW_STEPS : Nat := 1
def BACKUP_CODE_LEN : Nat := 10

/-- Normalize user input: drop spaces/dashes, lowercase. -/
def normalizeCode (w : World) (code : String) : String :=
  w.toLowercase (String.ofList (code.toList.filter fun c => !isWhitespace c && c ≠ '-'))

def isTotpCode (code : String) : Bool :=
  code.utf8ByteSize = TOTP_DIGITS && code.toList.all isAsciiDigit

/-- The time step a code is valid for (within ±skew of `now`), if any. -/
def matchingStep (w : World) (secret : List UInt8) (code : String) (now : Nat) : Option Nat :=
  let current := now / TOTP_STEP_SECS
  let first := current - TOTP_SKEW_STEPS
  (List.range' first (current + TOTP_SKEW_STEPS + 1 - first)).find? fun step =>
    w.totp secret step = code

namespace MfaService

variable (w : World)

/-- The present in whole seconds, not before the epoch. -/
def now : Service Nat := do
  let t ← utcNow
  pure (t / 1000000).toNat

/-- The stored secret, or why it cannot be read. -/
def decodeSecret (enc : String) : Except AppError (List UInt8) := do
  let encoded ← w.decrypt enc
  (w.decodeSecret encoded).mapError fun e => .internal ("Stored MFA secret is invalid: " ++ e)

/-- `decrypt_secret`. -/
def decryptSecret (identity : Identity) : Service (Option (List UInt8)) :=
  match identity.mfaSecret with
  | none => pure none
  | some enc => Service.ofResult ((decodeSecret w enc).map some)

/-- The TOTP branch of `verify`. -/
def verifyTotp (identity : Identity) (code : String) : Service Bool := do
  match ← decryptSecret w identity with
  | none => pure false
  | some secret =>
    let now ← MfaService.now
    match matchingStep w secret code now with
    | some step => MfaRepo.markStepUsed identity.id step
    | none => pure false

/-- Check a second-factor code for an identity with MFA enabled: a current TOTP code (not
previously used) or an unused backup code (consumed on success). -/
def verify (identity : Identity) (code : String) : Service Bool :=
  if identity.mfaEnabled then
    let code := normalizeCode w code
    if isTotpCode code then verifyTotp w identity code
    else if code.utf8ByteSize ≠ BACKUP_CODE_LEN then pure false
    else MfaRepo.consumeBackupCode identity.id (w.sha256Hex code)
  else pure false

def requireValidCode (identity : Identity) (code : String) : Service Unit := do
  Service.ensure (identity.mfaEnabled = true) (.badRequest "MFA is not enabled")
  let valid ← verify w identity code
  Service.ensure (valid = true) (.unauthorized "Invalid MFA code")

/-- What the user adds to their authenticator app: a base32 secret and its URI. -/
structure MfaEnrollment where
  secret : String
  otpauthUrl : String

/-- Text without `:`, which separates issuer and account in otpauth labels. -/
def withoutColons (s : String) : String := String.ofList (s.toList.filter (· ≠ ':'))

/-- Start (or restart) enrollment: generate and store a pending secret. -/
def beginEnrollment (identity : Identity) (accountLabel : String) : Service MfaEnrollment := do
  Service.ensure (identity.mfaEnabled = false) (.conflict "MFA is already enabled")
  let encoded : String ← Program.request (I := authrs) Request.newTotpSecret
  let encrypted : Except AppError String ←
    Program.request (I := authrs) (Request.encrypt encoded)
  let encrypted ← Service.ofResult encrypted
  MfaRepo.setPendingSecret identity.id encrypted
  pure ⟨encoded, w.otpauthUrl encoded (withoutColons w.mfaIssuer) (withoutColons accountLabel)⟩

/-- Fresh backup codes. -/
def generateBackupCodes : Service (List String) :=
  Program.request (I := authrs) Request.newBackupCodes

/-- `hash_backup_code(&normalize_code(c))`. -/
def backupCodeHash (c : String) : String := w.sha256Hex (normalizeCode w c)

/-- The step of the confirming code: `is_totp_code(&code).then(|| matching_step(..)).flatten()`. -/
def confirmedStep (secret : List UInt8) (code : String) : Service (Option Nat) :=
  if isTotpCode code then do
    let now ← MfaService.now
    pure (matchingStep w secret code now)
  else pure none

/-- Confirm enrollment with a code from the app; enables MFA and returns fresh backup codes. -/
def confirmEnrollment (identity : Identity) (code : String) : Service (List String) := do
  Service.ensure (identity.mfaEnabled = false) (.conflict "MFA is already enabled")
  let secret ← decryptSecret w identity
  let secret ← Service.okOr secret (.badRequest "Start MFA enrollment first")
  let step ← confirmedStep w secret (normalizeCode w code)
  let step ← Service.okOr step (.unauthorized "Invalid MFA code")
  let _ ← MfaRepo.markStepUsed identity.id step
  let codes ← generateBackupCodes
  MfaRepo.enable identity.id (codes.map (backupCodeHash w))
  pure codes

/-- Turn MFA off (requires a valid code). -/
def disable (identity : Identity) (code : String) : Service Unit := do
  requireValidCode w identity code
  MfaRepo.disable identity.id

/-- Replace all backup codes (requires a valid code). -/
def regenerateBackupCodes (identity : Identity) (code : String) : Service (List String) := do
  requireValidCode w identity code
  let codes ← generateBackupCodes
  MfaRepo.replaceBackupCodes identity.id (codes.map (backupCodeHash w))
  pure codes

def backupCodesRemaining (identity : Identity) : Service Nat :=
  if identity.mfaEnabled then MfaRepo.countUnusedBackupCodes identity.id else pure 0

end MfaService

end Authrs
