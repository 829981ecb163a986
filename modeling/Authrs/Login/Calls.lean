import Authrs.Services.Provisioning
import Mathlib.Data.Set.Basic

/-!
# The login calls and what they exchange

The eight calls that can end in a session, and a reading of their exchanges: the membership and
identity rows a call has learnt, and the credentials a request issues. `do_create_session` begins
with the lookup of the user's roles, which nothing else in these calls sends; so this request
stands for reaching it.

## Main definitions

* `LoginCall`, `LoginCall.run`: the calls
* `membershipOf`, `identityOf`, `redemptionOf`: the row an exchange makes known, the challenge it
  deletes
* `Rows`: all of these in a history
* `Issue`, `issued`: a session, a challenge or a change token, and the request that issues it
* `sessionKey`: where a request stores a session
* `Prologue`: the same, before anything is issued
* `Gates`: what `check_gates` demands, at some instants
-/

namespace Authrs

open Interaction

/-- A call that can end in a session. -/
inductive LoginCall
  | emailPassword (tenantId email password : String)
  | usernamePassword (tenantId username password : String)
  | verifiedOtp (tenantId email : String)
  | oauth (tenantId provider : String) (profile : OauthProfile) (allowSignup : Bool)
  | completeMfa (mfaToken code : String)
  | forceChange (changeToken newPassword retypePassword : String)
  | selectTenant (identityId : Uuid) (tenantId : String)
  | selectTenantWithToken (identityToken tenantId : String)

/-- **The call**, from an address with a user agent. -/
def LoginCall.run (w : World) (ip userAgent : Option String) : LoginCall → Service LoginResult
  | emailPassword tenantId email password =>
    AuthService.loginEmailPassword w tenantId email password ip userAgent
  | usernamePassword tenantId username password =>
    AuthService.loginUsernamePassword w tenantId username password ip userAgent
  | verifiedOtp tenantId email => AuthService.loginWithVerifiedOtp w tenantId email ip userAgent
  | oauth tenantId provider profile allowSignup =>
    AuthService.loginOauth w tenantId provider profile allowSignup ip userAgent
  | completeMfa mfaToken code => AuthService.completeMfaLogin w mfaToken code ip userAgent
  | forceChange changeToken newPassword retypePassword =>
    AuthService.forceChangePassword w changeToken newPassword retypePassword ip userAgent
  | selectTenant identityId tenantId =>
    AuthService.selectTenant w identityId tenantId ip userAgent
  | selectTenantWithToken identityToken tenantId =>
    AuthService.selectTenantWithToken w identityToken tenantId ip userAgent

/-! ### Rows -/

/-- The columns of `users` in a joined row. -/
def User.toRow (u : User) : MembershipRow :=
  ⟨u.id, u.tenantId, u.identityId, u.username, u.status, u.accessValidUntil, u.createdAt,
    u.updatedAt⟩

/-- The membership row that an exchange reads or inserts. -/
def membershipOf : Event authrs → Option MembershipRow
  | ⟨.sql (.users (.getById _ _)), .ok (some u)⟩ => some u.toRow
  | ⟨.sql (.users (.getMembership _ _)), .ok (some u)⟩ => some u.toRow
  | ⟨.sql (.users (.getByEmail _ _)), .ok (some u)⟩ => some u.toRow
  | ⟨.sql (.users (.getByEmailInsensitive _ _)), .ok (some u)⟩ => some u.toRow
  | ⟨.sql (.users (.getByUsername _ _)), .ok (some u)⟩ => some u.toRow
  | ⟨.sql (.users (.create id tenantId identityId username now)), .ok _⟩ =>
    some ⟨id, tenantId, identityId, username, "active", none, now, now⟩
  | _ => none

/-- The identity that an exchange reads or inserts. -/
def identityOf : Event authrs → Option Identity
  | ⟨.sql (.identities (.getById _)), .ok i⟩ => i
  | ⟨.sql (.identities (.getByEmail _)), .ok i⟩ => i
  | ⟨.sql (.identities (.create ..)), .ok i⟩ => some i
  | _ => none

/-- The deletion of a challenge: its token and the number of rows it touched. -/
def redemptionOf : Event authrs → Option (String × Nat)
  | ⟨.sql (.challenges (.delete token)), .ok n⟩ => some (token, n)
  | _ => none

theorem redemptionOf_eq_some {e : Event authrs} {token : String} {n : Nat} :
    redemptionOf e = some (token, n) ↔ e = ⟨.sql (.challenges (.delete token)), .ok n⟩ := by
  constructor
  · intro h
    unfold redemptionOf at h
    split at h
    · cases h
      rfl
    · cases h
  · rintro rfl
    rfl

/-- The membership rows and the identities that a history makes known, and the challenges it
deletes. -/
structure Rows (ms : List MembershipRow) (is : List Identity) (ds : List (String × Nat))
    (h : List (Event authrs)) : Prop where
  memberships : h.filterMap membershipOf = ms
  identities : h.filterMap identityOf = is
  redemptions : h.filterMap redemptionOf = ds

/-- What `check_gates` demands of a membership and its identity, at instants of `ts`. -/
structure Gates (ts : Set Time) (m : MembershipRow) (i : Identity) : Prop where
  membershipActive : m.status = "active"
  identityActive : i.status = "active"
  unlocked : ∀ l, i.lockedUntil = some l → ∃ t ∈ ts, ¬ t < l
  accessValid : ∀ v, m.accessValidUntil = some v → ∃ t ∈ ts, ¬ v < t

/-- The readings of the clock in a history. -/
def clocks (h : List (Event authrs)) : Set Time := {t | ⟨.clock, t⟩ ∈ h}

/-! ### Credentials -/

/-- What a login can issue. -/
inductive Issue
  | session
  | challenge
  | changeToken
  deriving DecidableEq

/-- What a request issues, for which tenant and membership. A session is issued from the first
request of `do_create_session` on. -/
def issued : Request → Option (Issue × String × Uuid)
  | .sql (.roles (.getUserRoles tenantId userId)) => some (.session, tenantId, userId)
  | .sql (.sessions (.insert tenantId userId ..)) => some (.session, tenantId, userId)
  | .redis (.setEx _ payload _) => some (.session, payload.tenantId, payload.userId)
  | .sql (.challenges (.insert _ tenantId userId _)) => some (.challenge, tenantId, userId)
  | .sql (.tokens (.createForceChangeToken tenantId userId ..)) =>
    some (.changeToken, tenantId, userId)
  | _ => none

/-- The key under which a request stores a session; in `sessions` it is the token. -/
def sessionKey : Request → Option String
  | .sql (.sessions (.insert _ _ sessionToken ..)) => some (RedisSessionStore.key sessionToken)
  | .redis (.setEx key ..) => some key
  | _ => none

/-- A request that makes no row known and deletes no challenge. -/
def Silent (q : Request) : Prop :=
  ∀ r : Reply q, membershipOf ⟨q, r⟩ = none ∧ identityOf ⟨q, r⟩ = none ∧ redemptionOf ⟨q, r⟩ = none

/-- A request that makes no row known, deletes no challenge and issues nothing. -/
structure Quiet (q : Request) : Prop where
  silent : Silent q
  nothing : issued q = none

/-- The rows of a history in which nothing has been issued yet. -/
structure Prologue (ms : List MembershipRow) (is : List Identity) (ds : List (String × Nat))
    (h : List (Event authrs)) : Prop extends Rows ms is ds h where
  unissued : ∀ e ∈ h, issued e.request = none

section Rows

variable {ms : List MembershipRow} {is : List Identity} {ds : List (String × Nat)}
  {h : List (Event authrs)} {e : Event authrs}

/-- An exchange adds what it makes known. -/
theorem Rows.push (hr : Rows ms is ds h) (e : Event authrs) :
    Rows ((membershipOf e).toList ++ ms) ((identityOf e).toList ++ is)
      ((redemptionOf e).toList ++ ds) (e :: h) := by
  obtain ⟨rfl, rfl, rfl⟩ := hr
  refine ⟨?_, ?_, ?_⟩
  · rw [List.filterMap_cons]
    cases membershipOf e <;> rfl
  · rw [List.filterMap_cons]
    cases identityOf e <;> rfl
  · rw [List.filterMap_cons]
    cases redemptionOf e <;> rfl

theorem Rows.cons (hr : Rows ms is ds h) (he : Silent e.request) : Rows ms is ds (e :: h) := by
  obtain ⟨hm, hi, hd⟩ := he e.reply
  have hpush := hr.push e
  rwa [hm, hi, hd] at hpush

theorem Prologue.nil : Prologue [] [] [] [] := ⟨⟨rfl, rfl, rfl⟩, by simp⟩

theorem Prologue.push (hp : Prologue ms is ds h) (e : Event authrs)
    (he : issued e.request = none) :
    Prologue ((membershipOf e).toList ++ ms) ((identityOf e).toList ++ is)
      ((redemptionOf e).toList ++ ds) (e :: h) :=
  ⟨hp.toRows.push e, List.forall_mem_cons.mpr ⟨he, hp.unissued⟩⟩

theorem Prologue.cons (hp : Prologue ms is ds h) (he : Quiet e.request) :
    Prologue ms is ds (e :: h) :=
  ⟨hp.toRows.cons he.silent, List.forall_mem_cons.mpr ⟨he.nothing, hp.unissued⟩⟩

end Rows

theorem Gates.mono {ts ts' : Set Time} {m : MembershipRow} {i : Identity} (hg : Gates ts m i)
    (hsub : ts ⊆ ts') : Gates ts' m i where
  membershipActive := hg.membershipActive
  identityActive := hg.identityActive
  unlocked l hl := by
    obtain ⟨t, ht, hlt⟩ := hg.unlocked l hl
    exact ⟨t, hsub ht, hlt⟩
  accessValid v hv := by
    obtain ⟨t, ht, hvt⟩ := hg.accessValid v hv
    exact ⟨t, hsub ht, hvt⟩

theorem clocks_mono {h h' : List (Event authrs)} (hsub : h ⊆ h') : clocks h ⊆ clocks h' :=
  fun _ ht => hsub ht

end Authrs
