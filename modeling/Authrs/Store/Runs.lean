import Authrs.Store.Draws

/-!
# Runs of the services

What holds of every run of programs of the services side by side, whatever they are: random tokens
that are drawn once belong to one exchange, and a table changes only by the statements on it.

## Main definitions

* `FreshTokens`: the random tokens are distinct, and stored as they are
* `drawnToken`, `Drawn`: the tokens drawn so far in a run
* `drawnUuid`, `DrawnUuids`: the uuids drawn so far in a run

## Main results

* `Drawn.move`, `DrawnUuids.move`: every exchange keeps the drawn tokens and uuids distinct
* `Sql.exec_frame`, `handle_frame`: a statement changes only tables of its kind
-/

namespace Authrs

open Interaction

/-- Random tokens are distinct, and in an alphabet without blanks. -/
structure FreshTokens (w : World) : Prop where
  injective : Function.Injective w.token
  noBlank : ∀ n, ' ' ∉ (w.token n).toList

theorem World.offline_freshTokens : FreshTokens .offline where
  injective n n' h := by
    have hlist : (List.replicate (n + 1) 'x').length = (List.replicate (n' + 1) 'x').length :=
      congrArg List.length (String.ofList_injective h)
    simpa using hlist
  noBlank n := by simp [World.offline]

/-- A token is stored as it is, or not at all. -/
theorem FreshTokens.varcharReq_token {w : World} (hw : FreshTokens w) {k n : Nat} {t : String}
    (h : varcharReq k (w.token n) = .ok t) : t = w.token n :=
  varchar_of_no_blank (varcharReq_ok h) (hw.noBlank n)

/-! ### Tables that a request leaves alone -/

/-- The tables that a statement leaves alone, by the kind of the statement. -/
structure Sql.Frame (q : Sql) (db db' : Db) : Prop where
  kvStore : db'.kvStore = db.kvStore
  identities : (∀ x, q ≠ .identities x) → db'.identities = db.identities
  users : (∀ x, q ≠ .users x) → db'.users = db.users
  mfaChallenges : (∀ x, q ≠ .challenges x) → db'.mfaChallenges = db.mfaChallenges
  oauthStates : (∀ x, q ≠ .oauth x) → db'.oauthStates = db.oauthStates
  identityOauthAccounts :
    (∀ x, q ≠ .oauth x) → db'.identityOauthAccounts = db.identityOauthAccounts
  otpCodes : (∀ x, q ≠ .otps x) → db'.otpCodes = db.otpCodes
  passwordResetTokens : (∀ x, q ≠ .tokens x) → db'.passwordResetTokens = db.passwordResetTokens
  forceChangeTokens : (∀ x, q ≠ .tokens x) → db'.forceChangeTokens = db.forceChangeTokens

theorem Sql.Frame.refl (q : Sql) (db : Db) : q.Frame db db := by
  constructor <;> first | exact rfl | exact fun _ => rfl

/-- **A statement changes only tables of its kind.** -/
theorem Sql.exec_frame {env : SqlEnv} {db db' : Db} {q : Sql} {r : q.Rows}
    (h : q.exec env db = .ok (r, db')) : q.Frame db db' := by
  cases q with
  | identities x =>
    rw [IdentityStmt.exec_frame h]
    constructor <;> first | exact rfl | exact fun _ => rfl | exact fun hq => absurd rfl (hq x)
  | users x =>
    rw [MembershipStmt.exec_frame h]
    constructor <;> first | exact rfl | exact fun _ => rfl | exact fun hq => absurd rfl (hq x)
  | challenges x =>
    rw [ChallengeStmt.exec_frame h]
    constructor <;> first | exact rfl | exact fun _ => rfl | exact fun hq => absurd rfl (hq x)
  | oauth x =>
    rw [OauthStmt.exec_frame h]
    constructor <;> first | exact rfl | exact fun _ => rfl | exact fun hq => absurd rfl (hq x)
  | tokens x =>
    rw [TokenStmt.exec_frame h]
    constructor <;> first | exact rfl | exact fun _ => rfl | exact fun hq => absurd rfl (hq x)
  | roles =>
    rw [RoleStmt.exec_frame h]
    constructor <;> first | exact rfl | exact fun _ => rfl
  | groups =>
    rw [GroupStmt.exec_frame h]
    constructor <;> first | exact rfl | exact fun _ => rfl
  | permissions =>
    rw [PermissionStmt.exec_frame h]
    constructor <;> first | exact rfl | exact fun _ => rfl
  | sessions =>
    rw [SessionStmt.exec_frame h]
    constructor <;> first | exact rfl | exact fun _ => rfl
  | kv =>
    rw [KvStmt.exec_eq h]
    exact .refl _ _
  | otps x =>
    rw [OtpStmt.exec_frame h]
    constructor <;> first | exact rfl | exact fun _ => rfl | exact fun hq => absurd rfl (hq x)

/-- **A request changes only tables of its kind.** -/
theorem handle_frame (w : World) (s : State) (q : Request) :
    (∃ x, q = .sql x ∧ x.Frame s.db (handle w q s).2.db) ∨ (handle w q s).2.db = s.db := by
  rcases handle_db (w := w) (s := s) q with hdb | ⟨x, r, rfl, hx⟩
  · exact .inr hdb
  · exact .inl ⟨x, rfl, Sql.exec_frame hx⟩

/-- No request changes the configuration. -/
theorem handle_kvStore (w : World) (s : State) (q : Request) :
    (handle w q s).2.db.kvStore = s.db.kvStore := by
  rcases handle_frame w s q with ⟨x, rfl, hx⟩ | hdb
  · exact hx.kvStore
  · rw [hdb]

theorem exec_kvStore (w : World) (s : State) {α : Type} (p : Service α) :
    (p.exec (handle w) s).2.db.kvStore = s.db.kvStore := by
  induction p generalizing s with
  | pure a => rfl
  | throw e => rfl
  | ask q k ih => exact (ih _ _).trans (handle_kvStore w s q)

theorem handle_mfaChallenges (w : World) (s : State) {q : Request}
    (h : ∀ x, q ≠ .sql (.challenges x)) :
    (handle w q s).2.db.mfaChallenges = s.db.mfaChallenges := by
  rcases handle_frame w s q with ⟨x, rfl, hx⟩ | hdb
  · exact hx.mfaChallenges fun y hy => h y (congrArg _ hy)
  · rw [hdb]

/-! ### Random tokens -/

section Draws

variable {ι : Type} {w : World} {s : State} {log : List (Move authrs ι State)}

/-- The random token that a move draws. -/
def drawnToken (m : Move authrs ι State) : Option String :=
  match m.event with
  | ⟨.randomToken, t⟩ => some t
  | _ => none

theorem drawnToken_eq_some {m : Move authrs ι State} {t : String} :
    drawnToken m = some t ↔ m.event = ⟨.randomToken, t⟩ := by
  obtain ⟨i, ⟨q, r⟩, s⟩ := m
  cases q with
  | randomToken => simp [drawnToken]
  | _ => simp [drawnToken]

/-- The tokens drawn in a record are values of the stream before the present draw, each drawn by
one move. -/
structure Drawn (w : World) (s : State) (log : List (Move authrs ι State)) : Prop where
  below : ∀ t ∈ log.filterMap drawnToken, ∃ n < s.draws, t = w.token n
  once : (log.filterMap drawnToken).Nodup

/-- **Every exchange keeps the drawn tokens distinct.** -/
theorem Drawn.move (hw : FreshTokens w) (hd : Drawn w s log) (i : ι) (q : Request) :
    Drawn w (handle w q s).2 (⟨i, ⟨q, (handle w q s).1⟩, s⟩ :: log) := by
  have hdraw : Draws w w.token fun e => drawnToken (⟨i, e, s⟩ : Move authrs ι State) := by
    intro q s' t ht
    cases q with
    | randomToken =>
      cases ht
      exact ⟨rfl, Nat.lt_succ_self _⟩
    | _ => cases ht
  have hbelow : ∀ t ∈ log.filterMap drawnToken, ∃ n ∈ Set.Ico 0 s.draws, t = w.token n := by
    intro t ht
    obtain ⟨n, hn, rfl⟩ := hd.below t ht
    exact ⟨n, ⟨Nat.zero_le _, hn⟩, rfl⟩
  have hfrom : DrawnFrom w.token (fun e => drawnToken (⟨i, e, s⟩ : Move authrs ι State)) 0 s log :=
    ⟨Nat.zero_le _, hbelow, fun _ => hd.once⟩
  obtain ⟨-, hbetween, honce⟩ := hfrom.move hdraw i q
  refine ⟨fun t ht => ?_, honce hw.injective.injOn⟩
  obtain ⟨n, hn, rfl⟩ := hbetween t ht
  exact ⟨n, hn.2, rfl⟩

theorem Drawn.tick (hd : Drawn w s log) (d : Nat) : Drawn w (s.tick d) log := ⟨hd.below, hd.once⟩

/-- A drawn token belongs to one program. -/
theorem Drawn.unique [DecidableEq ι] (hd : Drawn w s log) {i j : ι} {t : String}
    (hi : (⟨.randomToken, t⟩ : Event authrs) ∈ own i log)
    (hj : (⟨.randomToken, t⟩ : Event authrs) ∈ own j log) : i = j := by
  obtain ⟨m, hm, rfl, he⟩ := mem_own.mp hi
  obtain ⟨m', hm', rfl, he'⟩ := mem_own.mp hj
  rw [eq_of_stamp hd.once hm hm' (drawnToken_eq_some.mpr he) (drawnToken_eq_some.mpr he')]

/-! ### Uuids -/

/-- The uuid that an exchange draws. -/
def drawnUuid (e : Event authrs) : Option Uuid :=
  match e with
  | ⟨.newUuid, id⟩ => some id
  | _ => none

/-- The uuids drawn in a record, newest first. -/
def uuidsDrawn (log : List (Move authrs ι State)) : List Uuid :=
  log.filterMap fun m => drawnUuid m.event

/-- The uuids drawn in a record are values of the stream between two draws, each drawn by one
move unless the stream repeats itself there. -/
structure DrawnUuids (w : World) (start : Nat) (s : State) (log : List (Move authrs ι State)) :
    Prop where
  started : start ≤ s.draws
  between : ∀ id ∈ uuidsDrawn log, ∃ n ∈ Set.Ico start s.draws, id = w.uuid n
  once : Set.InjOn w.uuid (Set.Ico start s.draws) → (uuidsDrawn log).Nodup

theorem DrawnUuids.nil (w : World) (s : State) :
    DrawnUuids w s.draws s ([] : List (Move authrs ι State)) :=
  ⟨Nat.le_refl _, by simp [uuidsDrawn], fun _ => List.nodup_nil⟩

theorem DrawnUuids.tick {start : Nat} (hd : DrawnUuids w start s log) (d : Nat) :
    DrawnUuids w start (s.tick d) log :=
  ⟨hd.started, hd.between, hd.once⟩

theorem draws_uuid (w : World) : Draws w w.uuid drawnUuid := by
  intro q s id hid
  cases q with
  | newUuid =>
    cases hid
    exact ⟨rfl, Nat.lt_succ_self _⟩
  | _ => cases hid

/-- **Every exchange keeps the drawn uuids distinct**, as long as the stream is. -/
theorem DrawnUuids.move {start : Nat} (hd : DrawnUuids w start s log) (i : ι) (q : Request) :
    DrawnUuids w start (handle w q s).2 (⟨i, ⟨q, (handle w q s).1⟩, s⟩ :: log) := by
  have hfrom : DrawnFrom w.uuid drawnUuid start s log := ⟨hd.started, hd.between, hd.once⟩
  obtain ⟨hstarted, hbetween, honce⟩ := hfrom.move (draws_uuid w) i q
  exact ⟨hstarted, hbetween, honce⟩

end Draws

end Authrs
