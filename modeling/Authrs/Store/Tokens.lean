import Authrs.Store.Accounts

/-!
# Statements on tokens

The SQL statements about the short-lived rows of the login flows: MFA challenges, OAuth states and
account links, identity tokens, password-reset tokens, forced-change tokens and membership
invites. A row counts as long as its expiry is in the future; expired challenges and states are
purged by the statement that precedes the next insert.

## Main definitions

* `ChallengeStmt`, `OauthStmt`, `TokenStmt`: the statements
* `ChallengeStmt.exec`, `OauthStmt.exec`, `TokenStmt.exec`: their results and effects

## Main results

* `insertChallenge_ok`, `insertOauthState_ok`, `insertOauthAccount_ok`, …: what a successful
  insert has checked and done
* `ChallengeStmt.exec_frame`, `OauthStmt.exec_frame`, `TokenStmt.exec_frame`: what a statement
  leaves alone
-/

namespace Authrs

open Relational

/-! ### MFA challenges -/

/-- What a challenge lookup returns. -/
structure MfaChallenge where
  tenantId : String
  userId : Uuid
  attemptCount : Nat
  deriving DecidableEq

/-- The statements on `mfa_challenges`. -/
inductive ChallengeStmt
  | deleteExpired
  | insert (token tenantId : String) (userId : Uuid) (expiresAt : Time)
  | get (token : String)
  | incrementAttempts (token : String)
  | delete (token : String)

/-- What the statement returns: rows, or the number of rows it touched. -/
@[reducible] def ChallengeStmt.Rows : ChallengeStmt → Type
  | .get _ => Option MfaChallenge
  | _ => Nat

/-- `SELECT tenant_id, user_id, attempt_count`. -/
def ChallengeRow.toChallenge (r : ChallengeRow) : MfaChallenge :=
  ⟨r.tenantId, r.userId, r.attemptCount⟩

/-- `SET attempt_count = attempt_count + 1`. -/
def ChallengeRow.withAttempt (r : ChallengeRow) : ChallengeRow :=
  { r with attemptCount := r.attemptCount + 1 }

@[simp] theorem ChallengeRow.withAttempt_token (r : ChallengeRow) :
    r.withAttempt.token = r.token := rfl

/-- The row of a challenge token that has not expired. -/
def Db.challenge (db : Db) (now : Time) (token : String) : Option ChallengeRow :=
  db.mfaChallenges.selectOne fun r => r.token = token && now < r.expiresAt

/-- Whether a membership exists, in any tenant. -/
def Db.hasUser (db : Db) (userId : Uuid) : Bool :=
  (db.users.selectOne fun u => u.id = userId).isSome

/-- `INSERT INTO mfa_challenges`. -/
def insertChallenge (db : Db) (token tenantId : String) (userId : Uuid) (expiresAt : Time) :
    Except SqlError (Nat × Db) := do
  let token ← varcharReq 255 token
  let tenantId ← varcharReq 255 tenantId
  match db.mfaChallenges.insert? ⟨token, tenantId, userId, 0, expiresAt⟩ with
  | none => .error (.uniqueViolation "mfa_challenges_token_key")
  | some challenges =>
    if !db.hasUser userId then
      .error (.foreignKeyViolation "mfa_challenges" "mfa_challenges_user_id_fkey")
    else .ok (1, { db with mfaChallenges := challenges })

theorem insertChallenge_ok {db db' : Db} {token tenantId : String} {userId : Uuid}
    {expiresAt : Time} {n : Nat}
    (h : insertChallenge db token tenantId userId expiresAt = .ok (n, db')) :
    ∃ token' tenantId' t, varcharReq 255 token = .ok token' ∧
      varcharReq 255 tenantId = .ok tenantId' ∧
      db.mfaChallenges.insert? ⟨token', tenantId', userId, 0, expiresAt⟩ = some t ∧
      db' = { db with mfaChallenges := t } := by
  unfold insertChallenge at h
  simp only [bind_eq_ok] at h
  obtain ⟨token', htok, tenantId', hten, h⟩ := h
  split at h
  · cases h
  · rename_i t hins
    split at h <;> cases h
    exact ⟨token', tenantId', t, htok, hten, hins, rfl⟩

/-- A statement on challenges: its result and the tables after it. -/
def ChallengeStmt.exec (env : SqlEnv) (db : Db) :
    (q : ChallengeStmt) → Except SqlError (q.Rows × Db)
  | .deleteExpired =>
    .ok (db.mfaChallenges.affected fun r => r.expiresAt ≤ env.now,
      { db with mfaChallenges := db.mfaChallenges.delete fun r => r.expiresAt ≤ env.now })
  | .insert token tenantId userId expiresAt => insertChallenge db token tenantId userId expiresAt
  | .get token => .ok ((db.challenge env.now token).map ChallengeRow.toChallenge, db)
  | .incrementAttempts token =>
    if db.mfaChallenges.rows.any fun r => r.token = token && maxInt ≤ r.attemptCount then
      .error .integerOutOfRange
    else
      .ok (db.mfaChallenges.affected fun r => r.token = token,
        { db with
          mfaChallenges :=
            db.mfaChallenges.update (fun r => r.token = token) ChallengeRow.withAttempt
              ChallengeRow.withAttempt_token })
  | .delete token =>
    .ok (db.mfaChallenges.affected fun r => r.token = token,
      { db with mfaChallenges := db.mfaChallenges.delete fun r => r.token = token })

/-- **A statement on challenges** changes at most the challenges. -/
theorem ChallengeStmt.exec_frame {env : SqlEnv} {db db' : Db} {q : ChallengeStmt} {r : q.Rows}
    (h : q.exec env db = .ok (r, db')) : db' = { db with mfaChallenges := db'.mfaChallenges } := by
  cases q with
  | insert =>
    obtain ⟨_, _, _, -, -, -, rfl⟩ := insertChallenge_ok h
    rfl
  | incrementAttempts =>
    simp only [exec] at h
    split at h <;> cases h
    rfl
  | _ =>
    cases h
    rfl

/-! ### OAuth states and account links -/

/-- A pending authorization request. -/
structure OauthState where
  tenantId : String
  provider : String
  pkceVerifier : String
  nonce : String
  deriving DecidableEq

/-- The statements on `oauth_states` and `identity_oauth_accounts`. -/
inductive OauthStmt
  | deleteExpired
  | insertState (state tenantId provider pkceVerifier nonce : String) (expiresAt : Time)
  | takeState (state : String)
  | getLinkedIdentity (provider providerUserId : String)
  | link (identityId : Uuid) (provider providerUserId : String) (email : Option String)

/-- What the statement returns: rows, or the number of rows it touched. -/
@[reducible] def OauthStmt.Rows : OauthStmt → Type
  | .takeState _ => Option OauthState
  | .getLinkedIdentity .. => Option Uuid
  | _ => Nat

/-- `RETURNING tenant_id, provider, pkce_verifier, nonce`. -/
def OauthStateRow.toState (r : OauthStateRow) : OauthState :=
  ⟨r.tenantId, r.provider, r.pkceVerifier, r.nonce⟩

/-- `WHERE state = $1 AND expires_at > now()`. -/
def OauthStateRow.takenBy (now : Time) (state : String) (r : OauthStateRow) : Bool :=
  r.state = state && now < r.expiresAt

/-- `INSERT INTO oauth_states`. -/
def insertOauthState (db : Db) (state tenantId provider pkceVerifier nonce : String)
    (expiresAt : Time) : Except SqlError (Nat × Db) := do
  let state ← varcharReq 255 state
  let tenantId ← varcharReq 255 tenantId
  let provider ← varcharReq 50 provider
  let pkceVerifier ← varcharReq 255 pkceVerifier
  let nonce ← varcharReq 255 nonce
  match db.oauthStates.insert? ⟨state, tenantId, provider, pkceVerifier, nonce, expiresAt⟩ with
  | none => .error (.uniqueViolation "oauth_states_state_key")
  | some states => .ok (1, { db with oauthStates := states })

theorem insertOauthState_ok {db db' : Db} {state tenantId provider pkceVerifier nonce : String}
    {expiresAt : Time} {n : Nat}
    (h : insertOauthState db state tenantId provider pkceVerifier nonce expiresAt =
      .ok (n, db')) :
    ∃ row t, varcharReq 255 state = .ok row.state ∧ varcharReq 255 tenantId = .ok row.tenantId ∧
      varcharReq 50 provider = .ok row.provider ∧
      varcharReq 255 pkceVerifier = .ok row.pkceVerifier ∧ varcharReq 255 nonce = .ok row.nonce ∧
      row.expiresAt = expiresAt ∧ db.oauthStates.insert? row = some t ∧
      db' = { db with oauthStates := t } := by
  unfold insertOauthState at h
  simp only [bind_eq_ok] at h
  obtain ⟨state', hs, tenantId', ht, provider', hp, verifier', hv, nonce', hn, h⟩ := h
  split at h
  · cases h
  · rename_i t hins
    cases h
    exact ⟨_, t, hs, ht, hp, hv, hn, rfl, hins, rfl⟩

/-- `INSERT INTO identity_oauth_accounts`. -/
def insertOauthAccount (db : Db) (identityId : Uuid) (provider providerUserId : String)
    (email : Option String) : Except SqlError (Nat × Db) := do
  let provider ← varcharReq 50 provider
  let providerUserId ← varcharReq 255 providerUserId
  let email ← varcharOpt 255 email
  match db.identityOauthAccounts.insert? ⟨identityId, provider, providerUserId, email⟩ with
  | none => .error (.uniqueViolation "uq_oauth_provider_subject")
  | some accounts =>
    if (db.identity identityId).isNone then
      .error (.foreignKeyViolation "identity_oauth_accounts"
        "identity_oauth_accounts_identity_id_fkey")
    else .ok (1, { db with identityOauthAccounts := accounts })

theorem insertOauthAccount_ok {db db' : Db} {identityId : Uuid} {provider providerUserId : String}
    {email : Option String} {n : Nat}
    (h : insertOauthAccount db identityId provider providerUserId email = .ok (n, db')) :
    ∃ row t, row.identityId = identityId ∧ varcharReq 50 provider = .ok row.provider ∧
      varcharReq 255 providerUserId = .ok row.providerUserId ∧
      db.identityOauthAccounts.insert? row = some t ∧ (db.identity identityId).isSome ∧
      db' = { db with identityOauthAccounts := t } := by
  unfold insertOauthAccount at h
  simp only [bind_eq_ok] at h
  obtain ⟨provider', hp, subject', hs, email', -, h⟩ := h
  split at h
  · cases h
  · rename_i t hins
    split at h <;> cases h
    rename_i hid
    exact ⟨_, t, rfl, hp, hs, hins, by simpa [Option.isSome_iff_ne_none] using hid, rfl⟩

/-- A statement on OAuth states and links: its result and the tables after it. -/
def OauthStmt.exec (env : SqlEnv) (db : Db) : (q : OauthStmt) → Except SqlError (q.Rows × Db)
  | .deleteExpired =>
    .ok (db.oauthStates.affected fun r => r.expiresAt ≤ env.now,
      { db with oauthStates := db.oauthStates.delete fun r => r.expiresAt ≤ env.now })
  | .insertState state tenantId provider pkceVerifier nonce expiresAt =>
    insertOauthState db state tenantId provider pkceVerifier nonce expiresAt
  | .takeState state =>
    .ok ((db.oauthStates.selectOne (OauthStateRow.takenBy env.now state)).map
        OauthStateRow.toState,
      { db with oauthStates := db.oauthStates.delete (OauthStateRow.takenBy env.now state) })
  | .getLinkedIdentity provider providerUserId =>
    .ok ((db.identityOauthAccounts.selectOne fun r =>
      r.provider = provider && r.providerUserId = providerUserId).map (·.identityId), db)
  | .link identityId provider providerUserId email =>
    insertOauthAccount db identityId provider providerUserId email

/-- **A statement on OAuth states and links** changes at most these. -/
theorem OauthStmt.exec_frame {env : SqlEnv} {db db' : Db} {q : OauthStmt} {r : q.Rows}
    (h : q.exec env db = .ok (r, db')) :
    db' = { db with
      oauthStates := db'.oauthStates
      identityOauthAccounts := db'.identityOauthAccounts } := by
  cases q with
  | insertState =>
    obtain ⟨_, _, -, -, -, -, -, -, -, rfl⟩ := insertOauthState_ok h
    rfl
  | link =>
    obtain ⟨_, _, -, -, -, -, -, rfl⟩ := insertOauthAccount_ok h
    rfl
  | _ =>
    cases h
    rfl

/-! ### Identity, reset, forced-change and invite tokens -/

/-- The statements on `identity_tokens`, `password_reset_tokens`, `force_change_tokens` and
`membership_invites`. -/
inductive TokenStmt
  | createIdentityToken (identityId : Uuid) (token : String) (expiresAt : Time)
  | getIdentityToken (token : String)
  | deleteIdentityToken (token : String)
  | createResetToken (identityId : Uuid) (token : String) (expiresAt : Time)
  | getResetToken (token : String) (now : Time)
  | deleteResetToken (token : String)
  | deleteResetTokensFor (identityId : Uuid)
  | createForceChangeToken (tenantId : String) (userId : Uuid) (token : String) (expiresAt : Time)
  | getForceChangeToken (token : String)
  | deleteForceChangeToken (token : String)
  | deleteForceChangeTokensFor (tenantId : String) (userId : Uuid)
  | createInvite (identityId : Uuid) (tenantId : String)
      (firstName lastName username : Option String) (token : String) (expiresAt : Time)
  | getInvite (token : String)
  | deleteInvite (token : String)
  | deleteInvitesFor (identityId : Uuid) (tenantId : String)

/-- What an invite lookup returns. -/
structure MembershipInvite where
  identityId : Uuid
  tenantId : String
  firstName : Option String
  lastName : Option String
  username : Option String
  deriving DecidableEq

/-- What the statement returns: rows, or the number of rows it touched. -/
@[reducible] def TokenStmt.Rows : TokenStmt → Type
  | .getIdentityToken _ => Option Uuid
  | .getResetToken .. => Option Uuid
  | .getForceChangeToken _ => Option (String × Uuid)
  | .getInvite _ => Option MembershipInvite
  | _ => Nat

/-- `SELECT identity_id, tenant_id, first_name, last_name, username`. -/
def InviteRow.toInvite (r : InviteRow) : MembershipInvite :=
  ⟨r.identityId, r.tenantId, r.firstName, r.lastName, r.username⟩

/-- `INSERT INTO` a token table that references an identity. -/
def insertIdentityToken (db : Db) (relation fkey : String) (t : Table IdentityTokenRow.token)
    (identityId : Uuid) (token : String) (expiresAt : Time) :
    Except SqlError (Table IdentityTokenRow.token) := do
  let token ← varcharReq 255 token
  match t.insert? ⟨identityId, token, expiresAt⟩ with
  | none => .error (.uniqueViolation (relation ++ "_token_key"))
  | some t' =>
    if (db.identity identityId).isNone then
      .error (.foreignKeyViolation relation fkey)
    else .ok t'

/-- `INSERT INTO force_change_tokens`. -/
def insertForceChangeToken (db : Db) (tenantId : String) (userId : Uuid) (token : String)
    (expiresAt : Time) : Except SqlError (Nat × Db) := do
  let tenantId ← varcharReq 255 tenantId
  let token ← varcharReq 255 token
  match db.forceChangeTokens.insert? ⟨tenantId, userId, token, expiresAt⟩ with
  | none => .error (.uniqueViolation "force_change_tokens_token_key")
  | some t =>
    if !db.hasTenant tenantId then
      .error (.foreignKeyViolation "force_change_tokens" "force_change_tokens_tenant_id_fkey")
    else if !db.hasUser userId then
      .error (.foreignKeyViolation "force_change_tokens" "force_change_tokens_user_id_fkey")
    else .ok (1, { db with forceChangeTokens := t })

theorem insertForceChangeToken_ok {db db' : Db} {tenantId token : String} {userId : Uuid}
    {expiresAt : Time} {n : Nat}
    (h : insertForceChangeToken db tenantId userId token expiresAt = .ok (n, db')) :
    ∃ tenantId' token' t, varcharReq 255 tenantId = .ok tenantId' ∧
      varcharReq 255 token = .ok token' ∧
      db.forceChangeTokens.insert? ⟨tenantId', userId, token', expiresAt⟩ = some t ∧
      db' = { db with forceChangeTokens := t } := by
  unfold insertForceChangeToken at h
  simp only [bind_eq_ok] at h
  obtain ⟨tenantId', hten, token', htok, h⟩ := h
  split at h
  · cases h
  · rename_i t hins
    repeat' split at h
    all_goals cases h
    exact ⟨tenantId', token', t, hten, htok, hins, rfl⟩

/-- `INSERT INTO membership_invites`. -/
def insertInvite (db : Db) (identityId : Uuid) (tenantId : String)
    (firstName lastName username : Option String) (token : String) (expiresAt : Time) :
    Except SqlError (Nat × Db) := do
  let tenantId ← varcharReq 255 tenantId
  let firstName ← varcharOpt 255 firstName
  let lastName ← varcharOpt 255 lastName
  let username ← varcharOpt 255 username
  let token ← varcharReq 255 token
  match db.membershipInvites.insert?
      ⟨identityId, tenantId, firstName, lastName, username, token, expiresAt⟩ with
  | none => .error (.uniqueViolation "membership_invites_token_key")
  | some t =>
    if (db.identity identityId).isNone then
      .error (.foreignKeyViolation "membership_invites" "membership_invites_identity_id_fkey")
    else if !db.hasTenant tenantId then
      .error (.foreignKeyViolation "membership_invites" "membership_invites_tenant_id_fkey")
    else .ok (1, { db with membershipInvites := t })

theorem insertInvite_ok {db db' : Db} {identityId : Uuid} {tenantId token : String}
    {firstName lastName username : Option String} {expiresAt : Time} {n : Nat}
    (h : insertInvite db identityId tenantId firstName lastName username token expiresAt =
      .ok (n, db')) :
    db' = { db with membershipInvites := db'.membershipInvites } := by
  unfold insertInvite at h
  simp only [bind_eq_ok] at h
  obtain ⟨_, -, _, -, _, -, _, -, _, -, h⟩ := h
  split at h
  · cases h
  · repeat' split at h
    all_goals cases h
    rfl

/-- The forced-change token row that has not expired. -/
def Db.forceChangeToken (db : Db) (now : Time) (token : String) : Option ForceChangeTokenRow :=
  db.forceChangeTokens.selectOne fun r => r.token = token && now < r.expiresAt

/-- The identity token row that has not expired. -/
def Db.identityToken (db : Db) (now : Time) (token : String) : Option IdentityTokenRow :=
  db.identityTokens.selectOne fun r => r.token = token && now < r.expiresAt

/-- A statement on tokens: its result and the tables after it. -/
def TokenStmt.exec (env : SqlEnv) (db : Db) : (q : TokenStmt) → Except SqlError (q.Rows × Db)
  | .createIdentityToken identityId token expiresAt => do
    let t ← insertIdentityToken db "identity_tokens" "identity_tokens_identity_id_fkey"
      db.identityTokens identityId token expiresAt
    .ok ((1 : Nat), { db with identityTokens := t })
  | .getIdentityToken token => .ok ((db.identityToken env.now token).map (·.identityId), db)
  | .deleteIdentityToken token =>
    .ok (db.identityTokens.affected fun r => r.token = token,
      { db with identityTokens := db.identityTokens.delete fun r => r.token = token })
  | .createResetToken identityId token expiresAt => do
    let t ← insertIdentityToken db "password_reset_tokens" "password_reset_tokens_identity_fk"
      db.passwordResetTokens identityId token expiresAt
    .ok ((1 : Nat), { db with passwordResetTokens := t })
  | .getResetToken token now =>
    .ok ((db.passwordResetTokens.selectOne fun r => r.token = token && now < r.expiresAt).map
      (·.identityId), db)
  | .deleteResetToken token =>
    .ok (db.passwordResetTokens.affected fun r => r.token = token,
      { db with passwordResetTokens := db.passwordResetTokens.delete fun r => r.token = token })
  | .deleteResetTokensFor identityId =>
    .ok (db.passwordResetTokens.affected fun r => r.identityId = identityId,
      { db with
        passwordResetTokens := db.passwordResetTokens.delete fun r => r.identityId = identityId })
  | .createForceChangeToken tenantId userId token expiresAt =>
    insertForceChangeToken db tenantId userId token expiresAt
  | .getForceChangeToken token =>
    .ok ((db.forceChangeToken env.now token).map fun r => (r.tenantId, r.userId), db)
  | .deleteForceChangeToken token =>
    .ok (db.forceChangeTokens.affected fun r => r.token = token,
      { db with forceChangeTokens := db.forceChangeTokens.delete fun r => r.token = token })
  | .deleteForceChangeTokensFor tenantId userId =>
    let chosen : ForceChangeTokenRow → Bool := fun r => r.tenantId = tenantId && r.userId = userId
    .ok (db.forceChangeTokens.affected chosen,
      { db with forceChangeTokens := db.forceChangeTokens.delete chosen })
  | .createInvite identityId tenantId firstName lastName username token expiresAt =>
    insertInvite db identityId tenantId firstName lastName username token expiresAt
  | .getInvite token =>
    .ok ((db.membershipInvites.selectOne fun r => r.token = token && env.now < r.expiresAt).map
      InviteRow.toInvite, db)
  | .deleteInvite token =>
    .ok (db.membershipInvites.affected fun r => r.token = token,
      { db with membershipInvites := db.membershipInvites.delete fun r => r.token = token })
  | .deleteInvitesFor identityId tenantId =>
    let chosen : InviteRow → Bool := fun r => r.identityId = identityId && r.tenantId = tenantId
    .ok (db.membershipInvites.affected chosen,
      { db with membershipInvites := db.membershipInvites.delete chosen })

/-- **A statement on tokens** changes at most the token tables. -/
theorem TokenStmt.exec_frame {env : SqlEnv} {db db' : Db} {q : TokenStmt} {r : q.Rows}
    (h : q.exec env db = .ok (r, db')) :
    db' = { db with
      identityTokens := db'.identityTokens
      passwordResetTokens := db'.passwordResetTokens
      forceChangeTokens := db'.forceChangeTokens
      membershipInvites := db'.membershipInvites } := by
  cases q with
  | createIdentityToken =>
    obtain ⟨_, -, h⟩ := bind_eq_ok.mp h
    cases h
    rfl
  | createResetToken =>
    obtain ⟨_, -, h⟩ := bind_eq_ok.mp h
    cases h
    rfl
  | createForceChangeToken =>
    obtain ⟨_, _, _, -, -, -, rfl⟩ := insertForceChangeToken_ok h
    rfl
  | createInvite =>
    rw [insertInvite_ok h]
  | _ =>
    cases h
    rfl

end Authrs
