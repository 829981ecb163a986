import Authrs.Base.UuidText
import Authrs.Policy.Domain
import Authrs.Store.Access

/-!
# The principals of a document

The principals of a document are resolved before it is saved: roles to their uids, users to their
ids. The lookup of a user by a handle names the column `email` of `users`, which a migration has
dropped: the database refuses the statement before it reads a row.

## Main definitions

* `usersColumns`: the columns of `users` after the migrations
* `PermissionsRepo.findRoleUid`, `PermissionsRepo.resolveUserId`: the lookups
* `PermissionsService.resolveOnePrincipal`, `resolvePrincipals`: their namesakes in the source

## Main results

* `resolveOnePrincipal_eq_ok`: which principals are resolved, and to what
* `resolvePrincipals_eq_ok`: a document is resolved when its principals are
-/

namespace Authrs

/-! ### The lookups -/

/-- The columns of `users`: those it was created with, those that were added, less those that were
dropped. -/
def usersColumns : List String :=
  let created := ["id", "tenant_id", "first_name", "last_name", "email", "username", "mobile",
    "country_code", "password_hash", "status", "mfa_enabled", "failed_attempts", "locked_until",
    "created_at", "updated_at"]
  let added := ["force_password_change", "access_valid_until", "identity_id"]
  let dropped := ["first_name", "last_name", "email", "mobile", "country_code", "password_hash",
    "mfa_enabled", "force_password_change", "failed_attempts", "locked_until"]
  (created ++ added).filter fun c => c ∉ dropped

/-- The text in a column of a membership. -/
def MembershipRow.text (u : MembershipRow) : String → Option String
  | "tenant_id" => some u.tenantId
  | "username" => u.username
  | "status" => some u.status
  | _ => none

/-- The role of an identifier, its uid or its name. -/
def Db.roleNamed (db : Db) (tenantId identifier : String) : Option RoleRow :=
  db.roles.selectOne fun r => r.tenantId = tenantId && (r.uid = identifier || r.name = identifier)

namespace PermissionsRepo

/-- `resolve_role_uid`, on the tables. -/
def findRoleUid (db : Db) (tenantId identifier : String) : Except AppError (Option String) :=
  (((RoleStmt.resolveRoleUid tenantId identifier).exec db).map Prod.fst).mapError .ofSqlError

/-- `SELECT id FROM users WHERE tenant_id = $1 AND (email = $2 OR username = $2)`. A column that the
table does not have is an error. -/
def resolveUserId (db : Db) (tenantId identifier : String) : Except AppError (Option Uuid) :=
  match ["id", "tenant_id", "email", "username"].find? fun c => c ∉ usersColumns with
  | some c =>
    .error (.internal ("error returned from database: column \"" ++ c ++ "\" does not exist"))
  | none =>
    .ok ((db.users.selectOne fun u => u.text "tenant_id" = some tenantId &&
      (u.text "email" = some identifier || u.text "username" = some identifier)).map (·.id))

end PermissionsRepo

/-! ### The service -/

namespace PermissionsService

open PermissionsRepo

variable (db : Db) (tenantId : String)

def resolveOnePrincipal (principal : String) : Except AppError String :=
  if principal = "*" then .ok principal
  else
    match splitOnce principal ':' with
    | none => .error (.badRequest ("Invalid principal format: " ++ principal))
    | some (pre, value) =>
      if pre = "role" then do
        -- Accept name or uid, resolve to uid either way.
        let uid ← findRoleUid db tenantId value
        match uid with
        | none => .error (.badRequest ("Role not found: " ++ value))
        | some uid => .ok ("role:" ++ uid)
      else if pre = "user" then
        if (Uuid.parseStr value).isSome then .ok principal
        else do
          let uuid ← resolveUserId db tenantId value
          match uuid with
          | none => .error (.badRequest ("User not found: " ++ value))
          | some uuid => .ok ("user:" ++ uuid.hyphenated)
      else .error (.badRequest ("Unknown principal prefix: " ++ pre))

def resolveStatement (stmt : PermissionStatement) : Except AppError PermissionStatement := do
  let principals ← stmt.principals.mapM (resolveOnePrincipal db tenantId)
  pure { stmt with principals := principals }

/-- Resolve principal identifiers to their stable form before saving. -/
def resolvePrincipals (doc : PermissionDocument) : Except AppError PermissionDocument := do
  let statements ← doc.statements.mapM (resolveStatement db tenantId)
  pure { doc with statements := statements }

variable {db tenantId}

/-! ### What is resolved -/

theorem findRoleUid_eq (identifier : String) :
    findRoleUid db tenantId identifier =
      .ok ((db.roleNamed tenantId identifier).map (·.uid)) := rfl

/-- **No user is found by a handle.** -/
theorem resolveUserId_refused (identifier : String) :
    resolveUserId db tenantId identifier =
      .error (.internal "error returned from database: column \"email\" does not exist") := by
  have hmissing : ["id", "tenant_id", "email", "username"].find? (fun c => c ∉ usersColumns) =
      some "email" := by
    decide
  rw [resolveUserId, hmissing]
  rfl

/-- A user is named by the text of an id. -/
def UserPrincipal (p : String) : Prop := ∃ v u, p = "user:" ++ v ∧ Uuid.parseStr v = some u

/-- A role is named by its uid or its name. -/
def RolePrincipal (db : Db) (tenantId p : String) (role : RoleRow) : Prop :=
  ∃ r, p = "role:" ++ r ∧ db.roleNamed tenantId r = some role

theorem splitOnce_prefixed {pre : String} (hpre : ':' ∉ pre.toList) (v : String) :
    splitOnce (pre ++ ":" ++ v) ':' = some (pre, v) := by
  rw [splitOnce_eq_some]
  simp [hpre]

theorem eq_of_splitOnce {p pre v : String} (h : splitOnce p ':' = some (pre, v)) :
    p = pre ++ ":" ++ v := by
  rw [splitOnce_eq_some] at h
  rw [← String.toList_inj, h.1]
  simp

theorem ne_star_of_splitOnce {p : String} {q : String × String} (h : splitOnce p ':' = some q) :
    p ≠ "*" := by
  rintro rfl
  have hnone : splitOnce "*" ':' = none := by decide
  rw [hnone] at h
  cases h

/-- **What a principal is resolved to.** -/
theorem resolveOnePrincipal_eq_ok {p p' : String} :
    resolveOnePrincipal db tenantId p = .ok p' ↔
      (p = "*" ∧ p' = p) ∨ (UserPrincipal p ∧ p' = p) ∨
        ∃ role, RolePrincipal db tenantId p role ∧ p' = "role:" ++ role.uid := by
  constructor
  · intro h
    unfold resolveOnePrincipal at h
    split_ifs at h with hstar
    · exact .inl ⟨hstar, (Except.ok.inj h).symm⟩
    · cases hsplit : splitOnce p ':' with
      | none =>
        rw [hsplit] at h
        cases h
      | some q =>
        obtain ⟨pre, v⟩ := q
        rw [hsplit] at h
        have hp := eq_of_splitOnce hsplit
        simp only at h
        split_ifs at h with hrole huser hid
        · subst hrole
          rw [findRoleUid_eq] at h
          cases hnamed : db.roleNamed tenantId v with
          | none =>
            rw [hnamed] at h
            cases h
          | some role =>
            rw [hnamed] at h
            exact .inr (.inr ⟨role, ⟨v, hp, hnamed⟩, (Except.ok.inj h).symm⟩)
        · -- A user id in any spelling passes through as it is.
          subst huser
          obtain ⟨u, hu⟩ := Option.isSome_iff_exists.mp hid
          exact .inr (.inl ⟨⟨v, u, hp, hu⟩, (Except.ok.inj h).symm⟩)
        · rw [resolveUserId_refused] at h
          cases h
  · rintro (⟨rfl, rfl⟩ | ⟨⟨v, u, rfl, hu⟩, rfl⟩ | ⟨role, ⟨r, rfl, hnamed⟩, rfl⟩)
    · exact if_pos rfl
    · have hsplit : splitOnce ("user:" ++ v) ':' = some ("user", v) :=
        splitOnce_prefixed (by decide : ':' ∉ "user".toList) v
      rw [resolveOnePrincipal, if_neg (ne_star_of_splitOnce hsplit), hsplit]
      simp only [hu, Option.isSome_some, if_true]
      exact if_neg (by decide)
    · have hsplit : splitOnce ("role:" ++ r) ':' = some ("role", r) :=
        splitOnce_prefixed (by decide : ':' ∉ "role".toList) r
      rw [resolveOnePrincipal, if_neg (ne_star_of_splitOnce hsplit), hsplit]
      simp only [findRoleUid_eq, hnamed, if_true]
      rfl

/-- A principal that is resolved. -/
def Resolvable (db : Db) (tenantId p : String) : Prop :=
  p = "*" ∨ UserPrincipal p ∨ ∃ role, RolePrincipal db tenantId p role

theorem exists_resolveOnePrincipal {p : String} :
    (∃ p', resolveOnePrincipal db tenantId p = .ok p') ↔ Resolvable db tenantId p := by
  simp only [resolveOnePrincipal_eq_ok]
  constructor
  · rintro ⟨p', ⟨h, -⟩ | ⟨h, -⟩ | ⟨role, h, -⟩⟩
    · exact .inl h
    · exact .inr (.inl h)
    · exact .inr (.inr ⟨role, h⟩)
  · rintro (h | h | ⟨role, h⟩)
    · exact ⟨p, .inl ⟨h, rfl⟩⟩
    · exact ⟨p, .inr (.inl ⟨h, rfl⟩)⟩
    · exact ⟨_, .inr (.inr ⟨role, h, rfl⟩)⟩

/-- **A document is resolved when its principals are**, and nothing else of it changes. -/
theorem resolvePrincipals_eq_ok {doc doc' : PermissionDocument} :
    resolvePrincipals db tenantId doc = .ok doc' ↔
      ∃ statements, doc' = { doc with statements := statements } ∧
        List.Forall₂ (fun s s' => ∃ ps, s' = { s with principals := ps } ∧
          List.Forall₂ (fun p p' => resolveOnePrincipal db tenantId p = .ok p') s.principals ps)
          doc.statements statements := by
  have hstatement : ∀ s s', resolveStatement db tenantId s = .ok s' ↔
      ∃ ps, s' = { s with principals := ps } ∧
        List.Forall₂ (fun p p' => resolveOnePrincipal db tenantId p = .ok p') s.principals ps := by
    intro s s'
    rw [resolveStatement, bind_eq_ok]
    simp only [mapM_eq_ok]
    exact exists_congr fun ps => ⟨fun h => ⟨(Except.ok.inj h.2).symm, h.1⟩,
      fun h => ⟨h.2, congrArg _ h.1.symm⟩⟩
  rw [resolvePrincipals, bind_eq_ok]
  simp only [mapM_eq_ok, hstatement]
  exact exists_congr fun statements => ⟨fun h => ⟨(Except.ok.inj h.2).symm, h.1⟩,
    fun h => ⟨h.2, congrArg _ h.1.symm⟩⟩

end PermissionsService

end Authrs
