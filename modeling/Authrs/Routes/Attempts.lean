import Authrs.Routes.Calls
import Authrs.Store.Runs
import Authrs.Interaction.Budget
import Mathlib.Data.Fintype.Card

/-!
# Attempts on codes and challenges

A one-time code and an MFA challenge take five wrong codes each. The counter of the row is read
when a verification begins, and a wrong code is counted at its end; in between, others that have
read the same counter verify codes of their own. So the limit is not the number of wrong codes
that are compared; it is in the runs in which every reading leaves room for the attempts that are
under way.

## Main definitions

* `routeRun`: a run of the routes
* `otpBudget`, `challengeBudget`: the attempts on one row
* `FreshDraws`: the ids and tokens of new rows are new ones

## Main results

* `otpBudget_lawful`, `challengeBudget_lawful`: what the statements do to the counters
* `run_attemptsWithin`: the budgets hold in the runs whose readings leave room
* `sixAtOnce_overspend`: six wrong codes for one row
-/

namespace Authrs

open Interaction Relational

variable {ι : Type}

/-- The counter of the row that an exchange reads for a call, if it is the row `id` and the call
presents another code. -/
def RouteCall.wrongCode (c : RouteCall) (id : Uuid) (e : Event authrs) : Option Nat :=
  match c, e with
  | otpVerify _ _ code _, ⟨.sql (.otps (.getLatest ..)), .ok (some otp)⟩ =>
    if otp.id = id ∧ otp.code ≠ trim code then some otp.attemptCount else none
  | _, _ => none

theorem RouteCall.wrongCode_eq_some {c : RouteCall} {id : Uuid} {e : Event authrs} {a : Nat}
    (h : c.wrongCode id e = some a) : ∃ tenantId identifier channel purpose otp,
      e = did (.otps (.getLatest tenantId identifier channel purpose)) (some otp) ∧ otp.id = id ∧
        otp.attemptCount = a := by
  unfold wrongCode at h
  split at h
  · rename_i tenantId identifier channel purpose otp
    split at h
    · rename_i hotp
      cases h
      exact ⟨tenantId, identifier, channel, purpose, otp, rfl, hotp.1, rfl⟩
    · cases h
  · cases h

/-- The counter that an exchange reads of a challenge. -/
def challengeAttempts (mfaToken : String) : Event authrs → Option Nat
  | ⟨.sql (.challenges (.get token)), .ok (some c)⟩ =>
    if token = mfaToken then some c.attemptCount else none
  | _ => none

theorem challengeAttempts_eq_some {mfaToken : String} {e : Event authrs} {a : Nat}
    (h : challengeAttempts mfaToken e = some a) :
    ∃ c, e = did (.challenges (.get mfaToken)) (some c) ∧ c.attemptCount = a := by
  unfold challengeAttempts at h
  split at h
  · rename_i c
    split at h
    · rename_i htoken
      cases h
      subst htoken
      exact ⟨c, rfl, rfl⟩
    · cases h
  · cases h

/-- **The attempts on a row of `otp_codes`**: a verification reads the counter when it compares a
wrong code with the row. -/
def otpBudget (call : ι → RouteCall) (id : Uuid) : Budget authrs ι State where
  counter s := (s.db.otpCodes.selectOne fun r => r.id = id).map OtpRow.attemptCount
  reading i e := (call i).wrongCode id e
  counts
    | .sql (.otps (.incrementAttempts id')) => id' = id
    | _ => false
  creates
    | .sql (.otps (.create id' ..)) => id' = id
    | _ => false
  limit := MAX_OTP_ATTEMPTS
  cap := maxInt

/-- **The attempts on a challenge.** -/
def challengeBudget (ι : Type) (mfaToken : String) : Budget authrs ι State where
  counter s := (s.db.mfaChallenges.selectOne fun r => r.token = mfaToken).map
    ChallengeRow.attemptCount
  reading _ e := challengeAttempts mfaToken e
  counts
    | .sql (.challenges (.incrementAttempts token)) => token = mfaToken
    | _ => false
  creates
    | .sql (.challenges (.insert token ..)) => (varcharReq 255 token).toOption = some mfaToken
    | _ => false
  limit := MAX_MFA_ATTEMPTS
  cap := maxInt

section Lawful

variable {w : World}

theorem otpBudget_counts {call : ι → RouteCall} {id : Uuid} {q : Request} :
    (otpBudget call id).counts q = true ↔ q = .sql (.otps (.incrementAttempts id)) := by
  constructor
  · intro h
    simp only [otpBudget] at h
    split at h
    · rw [of_decide_eq_true h]
    · cases h
  · rintro rfl
    exact decide_eq_true rfl

theorem challengeBudget_counts {mfaToken : String} {q : Request} :
    (challengeBudget ι mfaToken).counts q = true ↔
      q = .sql (.challenges (.incrementAttempts mfaToken)) := by
  constructor
  · intro h
    simp only [challengeBudget] at h
    split at h
    · rw [of_decide_eq_true h]
    · cases h
  · rintro rfl
    exact decide_eq_true rfl

/-- Counting an attempt on a code: one more on its row, unless the counter is at its end. -/
theorem handle_countOtp (w : World) (s : State) (id : Uuid) :
    (handle w (.sql (.otps (.incrementAttempts id))) s).2.db.otpCodes =
        s.db.otpCodes.update (fun r => r.id = id) OtpRow.withAttempt OtpRow.withAttempt_id ∨
      ((handle w (.sql (.otps (.incrementAttempts id))) s).2.db.otpCodes = s.db.otpCodes ∧
        ∃ r, s.db.otpCodes.selectOne (fun r => r.id = id) = some r ∧ maxInt ≤ r.attemptCount) := by
  by_cases hfull : s.db.otpCodes.rows.any fun r => r.id = id && maxInt ≤ r.attemptCount
  · obtain ⟨r, hr, hmax⟩ := List.any_eq_true.mp hfull
    rw [Bool.and_eq_true, decide_eq_true_eq, decide_eq_true_eq] at hmax
    refine .inr ⟨?_, r, Table.selectOne_key.mpr ⟨hr, hmax.1⟩, hmax.2⟩
    simp [handle, Sql.exec, OtpStmt.exec, hfull, State.afterSql]
  · refine .inl ?_
    simp [handle, Sql.exec, OtpStmt.exec, hfull, State.afterSql]

/-- Counting an attempt on a challenge. -/
theorem handle_countAttempt (w : World) (s : State) (mfaToken : String) :
    (handle w (.sql (.challenges (.incrementAttempts mfaToken))) s).2.db.mfaChallenges =
        s.db.mfaChallenges.update (fun r => r.token = mfaToken) ChallengeRow.withAttempt
          ChallengeRow.withAttempt_token ∨
      ((handle w (.sql (.challenges (.incrementAttempts mfaToken))) s).2.db.mfaChallenges =
          s.db.mfaChallenges ∧
        ∃ r, s.db.mfaChallenges.selectOne (fun r => r.token = mfaToken) = some r ∧
          maxInt ≤ r.attemptCount) := by
  by_cases hfull : s.db.mfaChallenges.rows.any fun r =>
    r.token = mfaToken && maxInt ≤ r.attemptCount
  · obtain ⟨r, hr, hmax⟩ := List.any_eq_true.mp hfull
    rw [Bool.and_eq_true, decide_eq_true_eq, decide_eq_true_eq] at hmax
    refine .inr ⟨?_, r, Table.selectOne_key.mpr ⟨hr, hmax.1⟩, hmax.2⟩
    simp [handle, Sql.exec, ChallengeStmt.exec, hfull, State.afterSql]
  · refine .inl ?_
    simp [handle, Sql.exec, ChallengeStmt.exec, hfull, State.afterSql]

/-- **What counting does to a column**: one more in the row of the key, and nothing in another. -/
theorem counted_column {Row Key : Type} {key : Row → Key} [DecidableEq Key] {t t' : Table key}
    {f : Row → Row} {g : ∀ r, key (f r) = key r} {n : Row → Nat} (hf : ∀ r, n (f r) = n r + 1)
    {cap : Nat} {k k' : Key}
    (ht : t' = t.update (fun r => key r = k') f g ∨
      (t' = t ∧ ∃ r, t.selectOne (fun r => key r = k') = some r ∧ cap ≤ n r)) {b : Nat}
    (hb : (t'.selectOne fun r => key r = k).map n = some b) :
    ∃ a, (t.selectOne fun r => key r = k).map n = some a ∧
      (k' ≠ k ∧ b = a ∨ k' = k ∧ b = a + 1 ∨ b = a ∧ cap ≤ a) := by
  obtain ⟨r', hr', rfl⟩ := Option.map_eq_some_iff.mp hb
  rcases ht with rfl | ⟨rfl, r₀, hr₀, hcap⟩
  · obtain ⟨r, hr, rfl⟩ := Table.selectOne_of_update hr'
    refine ⟨n r, congrArg (Option.map n) hr, ?_⟩
    have hk := (Table.selectOne_key.mp hr).2
    by_cases heq : k' = k
    · rw [if_pos (decide_eq_true (hk.trans heq.symm))]
      exact .inr (.inl ⟨heq, hf r⟩)
    · rw [if_neg fun h => heq ((of_decide_eq_true h).symm.trans hk)]
      exact .inl ⟨heq, rfl⟩
  · refine ⟨n r', congrArg (Option.map n) hr', ?_⟩
    by_cases heq : k' = k
    · subst heq
      obtain rfl : r' = r₀ := Option.some.inj (hr'.symm.trans hr₀)
      exact .inr (.inr ⟨rfl, hcap⟩)
    · exact .inl ⟨heq, rfl⟩

/-- **The statements treat the counter of a code lawfully.** -/
theorem otpBudget_lawful (w : World) (call : ι → RouteCall) (id : Uuid) :
    (otpBudget call id).Lawful (handle w) State.tick where
  reads i q s a h := by
    obtain ⟨tenantId, identifier, channel, purpose, otp, he, rfl, rfl⟩ := RouteCall.wrongCode_eq_some h
    obtain ⟨rfl, hreply⟩ := Event.mk.inj he
    have hread : s.db.latestOtp (s.sqlEnv w) tenantId identifier channel purpose = some otp :=
      Except.ok.inj (eq_of_heq hreply)
    have hfound : s.db.otpCodes.selectOne (fun r => r.id = otp.id) = some otp :=
      Table.selectOne_key.mpr ⟨(Db.latestOtp_mem hread).1, rfl⟩
    exact ⟨congrArg (Option.map OtpRow.attemptCount) hfound, rfl⟩
  steps q s b h := by
    by_cases hcounts : (otpBudget call id).counts q = true
    · obtain rfl := otpBudget_counts.mp hcounts
      obtain ⟨a, ha, hcases⟩ :=
        counted_column (n := OtpRow.attemptCount) (fun _ => rfl) (handle_countOtp w s id) h
      refine .inl ⟨a, ha, ?_⟩
      rcases hcases with ⟨hne, -⟩ | ⟨-, hb⟩ | hcap
      · exact absurd rfl hne
      · exact .inr (.inl ⟨hcounts, hb⟩)
      · exact .inr (.inr hcap)
    rw [Bool.not_eq_true] at hcounts
    -- Other requests leave the counter where it is, or create or delete the row.
    have hsame : (handle w q s).2.db.otpCodes = s.db.otpCodes →
        ∃ a, (otpBudget call id).counter s = some a ∧
          ((otpBudget call id).counts q = false ∧ b = a ∨ (otpBudget call id).counts q = true ∧
            b = a + 1 ∨ b = a ∧ (otpBudget call id).cap ≤ a) := by
      intro heq
      change Option.map _ (Table.selectOne _ _) = _ at h
      rw [heq] at h
      exact ⟨b, h, .inl ⟨hcounts, rfl⟩⟩
    rcases handle_db (w := w) (s := s) q with hdb | ⟨x, _, rfl, hexec⟩
    · exact .inl (hsame (by rw [hdb]))
    · cases x with
      | otps x =>
        cases x with
        | create =>
          obtain ⟨row, t, hid, hzero, hins, hdb⟩ := insertOtp_ok hexec
          obtain ⟨r', hr', rfl⟩ := Option.map_eq_some_iff.mp h
          rw [hdb] at hr'
          rcases Table.selectOne_of_insert hins hr' with ⟨rfl, hkey⟩ | hr
          · exact .inr ⟨decide_eq_true (hid.symm.trans hkey), rfl, hzero⟩
          · exact .inl ⟨_, congrArg (Option.map OtpRow.attemptCount) hr, .inl ⟨rfl, rfl⟩⟩
        | getLatest => exact .inl (hsame rfl)
        | incrementAttempts id' =>
          obtain ⟨a, ha, hcases⟩ :=
            counted_column (n := OtpRow.attemptCount) (fun _ => rfl) (handle_countOtp w s id') h
          refine .inl ⟨a, ha, ?_⟩
          rcases hcases with ⟨-, hb⟩ | ⟨heq, hb⟩ | hcap
          · exact .inl ⟨hcounts, hb⟩
          · exact absurd heq (of_decide_eq_false hcounts)
          · exact .inr (.inr hcap)
        | delete =>
          obtain ⟨r', hr', rfl⟩ := Option.map_eq_some_iff.mp h
          have hr := Table.selectOne_of_delete hr'
          exact .inl ⟨_, congrArg (Option.map OtpRow.attemptCount) hr, .inl ⟨rfl, rfl⟩⟩
      | _ => exact .inl (hsame ((Sql.exec_frame hexec).otpCodes fun _ h => nomatch h))
  passes t s b h := h

/-- **The statements treat the counter of a challenge lawfully.** -/
theorem challengeBudget_lawful (w : World) (mfaToken : String) :
    (challengeBudget ι mfaToken).Lawful (handle w) State.tick where
  reads i q s a h := by
    obtain ⟨c, he, rfl⟩ := challengeAttempts_eq_some h
    obtain ⟨rfl, hreply⟩ := Event.mk.inj he
    have hread : (s.db.challenge s.now mfaToken).map ChallengeRow.toChallenge = some c :=
      Except.ok.inj (eq_of_heq hreply)
    obtain ⟨r, hr, rfl⟩ := Option.map_eq_some_iff.mp hread
    have htoken := Table.selectOne_pos hr
    rw [Bool.and_eq_true, decide_eq_true_eq] at htoken
    have hfound : s.db.mfaChallenges.selectOne (fun r => r.token = mfaToken) = some r :=
      Table.selectOne_key.mpr ⟨Table.selectOne_mem hr, htoken.1⟩
    exact ⟨congrArg (Option.map ChallengeRow.attemptCount) hfound, rfl⟩
  steps q s b h := by
    by_cases hcounts : (challengeBudget ι mfaToken).counts q = true
    · obtain rfl := challengeBudget_counts.mp hcounts
      obtain ⟨a, ha, hcases⟩ := counted_column (n := ChallengeRow.attemptCount) (fun _ => rfl)
        (handle_countAttempt w s mfaToken) h
      refine .inl ⟨a, ha, ?_⟩
      rcases hcases with ⟨hne, -⟩ | ⟨-, hb⟩ | hcap
      · exact absurd rfl hne
      · exact .inr (.inl ⟨hcounts, hb⟩)
      · exact .inr (.inr hcap)
    rw [Bool.not_eq_true] at hcounts
    -- Other requests leave the counter where it is, or create or delete the row.
    have hsame : (handle w q s).2.db.mfaChallenges = s.db.mfaChallenges →
        ∃ a, (challengeBudget ι mfaToken).counter s = some a ∧
          ((challengeBudget ι mfaToken).counts q = false ∧ b = a ∨
            (challengeBudget ι mfaToken).counts q = true ∧ b = a + 1 ∨
              b = a ∧ (challengeBudget ι mfaToken).cap ≤ a) := by
      intro heq
      change Option.map _ (Table.selectOne _ _) = _ at h
      rw [heq] at h
      exact ⟨b, h, .inl ⟨hcounts, rfl⟩⟩
    rcases handle_db (w := w) (s := s) q with hdb | ⟨x, _, rfl, hexec⟩
    · exact .inl (hsame (by rw [hdb]))
    · cases x with
      | challenges x =>
        cases x with
        | insert token =>
          obtain ⟨token', tenantId', t, htoken, -, hins, hdb⟩ := insertChallenge_ok hexec
          obtain ⟨r', hr', rfl⟩ := Option.map_eq_some_iff.mp h
          rw [hdb] at hr'
          rcases Table.selectOne_of_insert hins hr' with ⟨rfl, hkey⟩ | hr
          · refine .inr ⟨decide_eq_true ?_, rfl, rfl⟩
            rw [htoken]
            exact congrArg some hkey
          · exact .inl ⟨_, congrArg (Option.map ChallengeRow.attemptCount) hr, .inl ⟨rfl, rfl⟩⟩
        | get => exact .inl (hsame rfl)
        | incrementAttempts token =>
          obtain ⟨a, ha, hcases⟩ := counted_column (n := ChallengeRow.attemptCount) (fun _ => rfl)
            (handle_countAttempt w s token) h
          refine .inl ⟨a, ha, ?_⟩
          rcases hcases with ⟨-, hb⟩ | ⟨heq, hb⟩ | hcap
          · exact .inl ⟨hcounts, hb⟩
          · exact absurd heq (of_decide_eq_false hcounts)
          · exact .inr (.inr hcap)
        | _ =>
          obtain ⟨r', hr', rfl⟩ := Option.map_eq_some_iff.mp h
          have hr := Table.selectOne_of_delete hr'
          exact .inl ⟨_, congrArg (Option.map ChallengeRow.attemptCount) hr, .inl ⟨rfl, rfl⟩⟩
      | _ => exact .inl (hsame ((Sql.exec_frame hexec).mfaChallenges fun _ h => nomatch h))
  passes t s b h := h

end Lawful

/-! ### Runs -/

variable [DecidableEq ι]

/-- **A run of the routes**: any number of calls, interleaved by a schedule, while time passes. -/
def routeRun (w : World) (s : State) (call : ι → RouteCall) (l : List (ι ⊕ Nat)) :
    Config authrs Failure Unit ι State :=
  (Config.start s fun i => (call i).run w).run (handle w) State.tick l

/-- **The ids and tokens of new rows are new ones**, up to a number of draws. -/
structure FreshDraws (w : World) (s : State) (n : Nat) : Prop where
  tokens : FreshTokens w
  uuids : Set.InjOn w.uuid (Set.Ico s.draws n)
  codes : ∀ r ∈ s.db.otpCodes, ∀ k ∈ Set.Ico s.draws n, w.uuid k ≠ r.id
  challenges : ∀ r ∈ s.db.mfaChallenges, ∀ k ∈ Set.Ico s.draws n, w.token k ≠ r.token

/-- The random token that an exchange draws. -/
def tokenDrawn : Event authrs → Option String
  | ⟨.randomToken, t⟩ => some t
  | _ => none

/-- The id of the row of `otp_codes` that a request creates. -/
def codeCreated : Request → Option Uuid
  | .sql (.otps (.create id ..)) => some id
  | _ => none

/-- The token of the challenge that a request creates. -/
def challengeCreated : Request → Option String
  | .sql (.challenges (.insert token ..)) => some token
  | _ => none

section Created

variable {w : World} {s : State} {call : ι → RouteCall} {l : List (ι ⊕ Nat)}

theorem draws_token (w : World) : Draws w w.token tokenDrawn := by
  intro q s t ht
  cases q with
  | randomToken =>
    cases ht
    exact ⟨rfl, Nat.lt_succ_self _⟩
  | _ => cases ht

/-- What is drawn in a run is drawn from its stream. -/
theorem routeRun_drawnFrom {κ : Type} {stream : Nat → κ} {draw : Event authrs → Option κ}
    (hdraw : Draws w stream draw) (s : State) (call : ι → RouteCall) (l : List (ι ⊕ Nat)) :
    DrawnFrom stream draw s.draws (routeRun w s call l).state (routeRun w s call l).log :=
  Config.run_invariant (J := fun s' log => DrawnFrom stream draw s.draws s' log)
    (C := fun i => (call i).contract w) (fun i => (call i).run_keeps w) (fun _ _ _ => trivial)
    (.nil s) (fun _ _ i q hd _ => hd.move hdraw i q) (fun _ _ d hd => hd.tick d) l

theorem routeRun_guaranteed {newer older : List (Move authrs ι State)} {m : Move authrs ι State}
    (hlog : (routeRun w s call l).log = newer ++ m :: older) :
    (call m.who).Guarantee w (own m.who older) m.event :=
  Config.run_guaranteed (C := fun i => (call i).contract w) (fun i => (call i).run_keeps w)
    (fun _ _ _ => trivial) l newer m older hlog

/-- A row of `otp_codes` is created under the id that its call has just drawn. -/
theorem codeCreated_drawn {c : RouteCall} {h : List (Event authrs)} {e : Event authrs} {id : Uuid}
    (hg : c.Guarantee w h e) (he : codeCreated e.request = some id) :
    ∃ rest, h = ⟨.newUuid, id⟩ :: rest := by
  obtain ⟨q, r⟩ := e
  unfold codeCreated at he
  split at he
  · rename_i hq
    obtain rfl : q = _ := hq
    cases he
    cases c with
    | client c => exact False.elim hg.2.1
    | emailOtpRequest tenantId email =>
      rcases hg with hord | ⟨_, _, _, _, _, _, _, rest, rfl, hq⟩
      · cases hord
      · cases hq
        exact ⟨rest, rfl⟩
    | otpVerify tenantId identifier code channel =>
      cases hg with
      | read hq => cases hq
      | count _ _ hq => cases hq
      | login _ _ _ hq => cases hq
      | delete _ _ _ hq => cases hq
  · cases he

/-- A challenge is created under a token that its call has drawn, and is the first thing that it
issues. -/
theorem challengeCreated_drawn {c : RouteCall} {h : List (Event authrs)} {e : Event authrs}
    {token : String} (hg : c.Guarantee w h e) (he : challengeCreated e.request = some token) :
    ⟨.randomToken, token⟩ ∈ h ∧ ∀ e' ∈ h, challengeCreated e'.request = none := by
  obtain ⟨q, r⟩ := e
  have hfirst : ∀ q, issued q = none → challengeCreated q = none := by
    intro q hq
    unfold challengeCreated
    split
    · cases hq
    · rfl
  unfold challengeCreated at he
  split at he
  · rename_i hq
    obtain rfl : q = _ := hq
    cases he
    cases c with
    | client c =>
      obtain ⟨hdrawn, hnone⟩ := guarantee_of_insert hg.1 rfl
      exact ⟨hdrawn, fun e' he' => hfirst _ (hnone e' he')⟩
    | emailOtpRequest tenantId email =>
      rcases hg with hord | ⟨_, _, _, _, _, _, _, _, -, hq⟩
      · cases hord
      · cases hq
    | otpVerify tenantId identifier code channel =>
      cases hg with
      | read hq => cases hq
      | count _ _ hq => cases hq
      | login _ _ hvetted _ =>
        obtain ⟨hdrawn, hnone⟩ := (hvetted _ _ _ rfl).1.challenge _ _ _ _ rfl
        refine ⟨List.mem_append_left _ hdrawn, List.forall_mem_append.mpr ⟨?_, ?_⟩⟩
        · exact fun e' he' => hfirst _ (hnone e' he')
        · simp [challengeCreated]
      | delete _ _ _ hq => cases hq
  · cases he

/-- What a call creates under a key that it has drawn is created once, if the key is new. -/
theorem createdOnce_of_drawn {κ : Type} {stream : Nat → κ} {draw : Event authrs → Option κ}
    (created : Request → Option κ) {B : Budget authrs ι State} {s' : State} {k : κ}
    {log : List (Move authrs ι State)} (hfrom : DrawnFrom stream draw s.draws s' log)
    (hinj : Set.InjOn stream (Set.Ico s.draws s'.draws))
    (hdisjoint : ∀ e k, created e.request = some k → draw e = none)
    (hdraw : ∀ newer m older k, log = newer ++ m :: older → created m.event.request = some k →
      ∃ a d b, own m.who older = a ++ d :: b ∧ draw d = some k ∧ ∀ e ∈ a, created e.request = none)
    (hcreates : ∀ m ∈ log, B.creates m.event.request = true → created m.event.request = some k)
    (hnew : ∀ n ∈ Set.Ico s.draws s'.draws, k = stream n → B.counter s = none) :
    B.CreatedOnce s log := by
  have honce : (log.filterMap fun m => created m.event.request).Nodup :=
    nodup_used (fun e => created e.request) hdisjoint (hfrom.once hinj) hdraw
  intro newer m older hlog hm
  have hmem : m ∈ log := hlog ▸ List.mem_append_right _ List.mem_cons_self
  have hk := hcreates m hmem hm
  constructor
  · obtain ⟨a, d, b, hown, hd, -⟩ := hdraw newer m older k hlog hk
    obtain ⟨x, hx, -, rfl⟩ := mem_own.mp (hown ▸ List.mem_append_right a List.mem_cons_self)
    have hxlog : x ∈ log := hlog ▸ List.mem_append_right _ (List.mem_cons_of_mem _ hx)
    obtain ⟨n, hn, hkn⟩ := hfrom.between k (List.mem_filterMap.mpr ⟨x, hxlog, hd⟩)
    exact hnew n hn hkn
  · intro x hx
    by_contra hxc
    rw [Bool.not_eq_false] at hxc
    have hxlog : x ∈ log := hlog ▸ List.mem_append_right _ (List.mem_cons_of_mem _ hx)
    have hkeep := List.filterMap_cons_some (f := fun m : Move authrs ι State =>
      created m.event.request) (l := older) hk
    rw [hlog, List.filterMap_append, hkeep] at honce
    have hfresh := (List.nodup_cons.mp (List.nodup_append.mp honce).2.1).1
    exact hfresh (List.mem_filterMap.mpr ⟨x, hx, hcreates x hxlog hxc⟩)

/-- **A row of `otp_codes` is created once.** -/
theorem createdOnce_code (hw : FreshDraws w s (routeRun w s call l).state.draws) (id : Uuid) :
    (otpBudget call id).CreatedOnce s (routeRun w s call l).log := by
  refine createdOnce_of_drawn codeCreated (k := id)
    (routeRun_drawnFrom (draws_uuid w) s call l) hw.uuids ?_ ?_ ?_ ?_
  · rintro ⟨q, r⟩ k hk
    cases q with
    | newUuid => cases hk
    | _ => rfl
  · intro newer m older id' hlog hid
    obtain ⟨rest, hown⟩ := codeCreated_drawn (routeRun_guaranteed hlog) hid
    exact ⟨[], _, rest, hown, rfl, by simp⟩
  · intro m _ hm
    simp only [otpBudget] at hm
    split at hm
    · rename_i hq
      rw [hq, ← of_decide_eq_true hm]
      rfl
    · cases hm
  · rintro n hn rfl
    refine Option.map_eq_none_iff.mpr (Table.selectOne_key_eq_none.mpr fun r hr heq => ?_)
    exact hw.codes r hr n hn heq.symm

/-- **A challenge is created once.** -/
theorem createdOnce_challenge (hw : FreshDraws w s (routeRun w s call l).state.draws)
    (mfaToken : String) :
    (challengeBudget ι mfaToken).CreatedOnce s (routeRun w s call l).log := by
  have hfrom := routeRun_drawnFrom (draws_token w) s call l
  refine createdOnce_of_drawn challengeCreated (k := mfaToken) hfrom
    hw.tokens.injective.injOn ?_ ?_ ?_ ?_
  · rintro ⟨q, r⟩ k hk
    cases q with
    | randomToken => cases hk
    | _ => rfl
  · intro newer m older token hlog htoken
    obtain ⟨hdrawn, hnone⟩ := challengeCreated_drawn (routeRun_guaranteed hlog) htoken
    obtain ⟨a, b, hown⟩ := List.append_of_mem hdrawn
    refine ⟨a, _, b, hown, rfl, fun e he => hnone e ?_⟩
    rw [hown]
    exact List.mem_append_left _ he
  · intro m hmem hm
    simp only [challengeBudget] at hm
    split at hm
    · rename_i token _ _ _ hq
      -- The token is stored as it was drawn.
      obtain ⟨newer, older, hlog⟩ := List.append_of_mem hmem
      have hcreated : challengeCreated m.event.request = some token := by rw [hq]; rfl
      obtain ⟨hdrawn, -⟩ := challengeCreated_drawn (routeRun_guaranteed hlog) hcreated
      obtain ⟨x, hx, -, hxe⟩ := mem_own.mp hdrawn
      have hxlog : x ∈ (routeRun w s call l).log :=
        hlog ▸ List.mem_append_right _ (List.mem_cons_of_mem _ hx)
      obtain ⟨n, -, rfl⟩ := hfrom.between token
        (List.mem_filterMap.mpr ⟨x, hxlog, by rw [hxe]; rfl⟩)
      have hstored := of_decide_eq_true hm
      cases hvarchar : varcharReq 255 (w.token n) with
      | error e =>
        rw [hvarchar] at hstored
        cases hstored
      | ok t =>
        rw [hvarchar] at hstored
        cases hstored
        rw [hcreated, hw.tokens.varcharReq_token hvarchar]
    · cases hm
  · rintro n hn rfl
    refine Option.map_eq_none_iff.mpr (Table.selectOne_key_eq_none.mpr fun r hr heq => ?_)
    exact hw.challenges r hr n hn heq.symm

end Created

section Allowed

variable {w : World} {call : ι → RouteCall} {i : ι} {h : List (Event authrs)} {e : Event authrs}

omit [DecidableEq ι] in
/-- A wrong code is counted once it has been compared. -/
theorem otpBudget_allowed (id : Uuid) (hg : (call i).Guarantee w h e) :
    (otpBudget call id).Allowed i h e := by
  intro hcounts
  have hq := otpBudget_counts.mp hcounts
  cases hc : call i with
  | client c =>
    rw [hc] at hg
    have hwarrant := hg.2.1
    rw [hq] at hwarrant
    exact False.elim hwarrant
  | emailOtpRequest tenantId email =>
    rw [hc] at hg
    rcases hg with hord | ⟨_, _, _, _, _, _, _, _, -, hq'⟩
    · rw [hq] at hord
      cases hord
    · rw [hq] at hq'
      cases hq'
  | otpVerify tenantId identifier code channel =>
    rw [hc] at hg
    cases hg with
    | read hq' =>
      rw [hq] at hq'
      cases hq'
    -- The row that is counted is the one that the call has read.
    | @count otp _ hlt hne hq' =>
      rw [hq] at hq'
      obtain rfl : id = otp.id := by
        cases hq'
        rfl
      refine ⟨⟨_, List.mem_singleton_self _, otp.attemptCount, hlt, ?_⟩, ?_⟩
      · have hwrong : (call i).wrongCode otp.id (otpRead w tenantId identifier otp) =
            some otp.attemptCount := by
          rw [hc]
          exact if_pos ⟨rfl, hne⟩
        exact hwrong
      · intro e' he'
        rw [List.mem_singleton.mp he']
        rfl
    | login _ _ _ hw =>
      rw [hq] at hw
      cases hw
    | delete _ _ _ hq' =>
      rw [hq] at hq'
      cases hq'

omit [DecidableEq ι] in
/-- A wrong second factor is counted once its call has read the challenge. -/
theorem challengeBudget_allowed (mfaToken : String) (hg : (call i).Guarantee w h e) :
    (challengeBudget ι mfaToken).Allowed i h e := by
  intro hcounts
  have hq := challengeBudget_counts.mp hcounts
  cases hc : call i with
  | client c =>
    rw [hc] at hg
    obtain ⟨-, ⟨ch, hread, hlt⟩, hun⟩ := hg.2.2 mfaToken hq
    refine ⟨⟨_, hread, ch.attemptCount, hlt, ?_⟩, fun e' he' => ?_⟩
    · exact if_pos rfl
    by_contra hne
    rw [Bool.not_eq_false] at hne
    have hnone := hun e' he'
    rw [challengeBudget_counts.mp hne] at hnone
    cases hnone
  | emailOtpRequest tenantId email =>
    rw [hc] at hg
    rcases hg with hord | ⟨_, _, _, _, _, _, _, _, -, hq'⟩
    · rw [hq] at hord
      cases hord
    · rw [hq] at hq'
      cases hq'
  | otpVerify tenantId identifier code channel =>
    rw [hc] at hg
    cases hg with
    | read hq' =>
      rw [hq] at hq'
      cases hq'
    | count _ _ hq' =>
      rw [hq] at hq'
      cases hq'
    | login _ _ _ hw =>
      rw [hq] at hw
      cases hw
    | delete _ _ _ hq' =>
      rw [hq] at hq'
      cases hq'

end Allowed

theorem maxAttempts_le : MAX_OTP_ATTEMPTS ≤ maxInt ∧ MAX_MFA_ATTEMPTS ≤ maxInt := by decide

/-- **The attempts on a code and on a challenge stay within five**, in every state of the runs
whose readings leave room for the attempts under way. -/
theorem run_attemptsWithin (w : World) (s : State) (call : ι → RouteCall) (l : List (ι ⊕ Nat))
    (hw : FreshDraws w s (routeRun w s call l).state.draws) :
    (∀ id, Config.EachTurn (handle w) State.tick ((otpBudget call id).Spare (handle w))
        (Config.start s fun i => (call i).run w) l →
      ∀ l', l' <+: l →
        (otpBudget call id).Within ((otpBudget call id).start s) (routeRun w s call l')) ∧
    (∀ mfaToken, Config.EachTurn (handle w) State.tick
        ((challengeBudget ι mfaToken).Spare (handle w))
        (Config.start s fun i => (call i).run w) l →
      ∀ l', l' <+: l → (challengeBudget ι mfaToken).Within ((challengeBudget ι mfaToken).start s)
        (routeRun w s call l')) := by
  constructor
  · intro id hspare l' hl'
    exact Budget.run_within (C := fun i => (call i).contract w) (otpBudget_lawful w call id)
      maxAttempts_le.1 (fun i => (call i).run_keeps w) (fun _ _ _ => trivial)
      (fun i _ _ hg => otpBudget_allowed id hg) (createdOnce_code hw id) hspare hl'
  · intro mfaToken hspare l' hl'
    exact Budget.run_within (C := fun i => (call i).contract w) (challengeBudget_lawful w mfaToken)
      maxAttempts_le.2 (fun i => (call i).run_keeps w) (fun _ _ _ => trivial)
      (fun i _ _ hg => challengeBudget_allowed mfaToken hg) (createdOnce_challenge hw mfaToken)
      hspare hl'

/-! ### Six calls at once -/

/-- A member with a second factor, a code that has been sent, and a challenge. -/
def coded : State :=
  .ofDb { Db.empty with
    tenants := .single ⟨"acme", "Acme", "active", 0⟩
    identities := .single { IdentityRow.ofHandles ⟨0, id, fun _ => 7⟩ (some "ann@acme.example") none
      none none none none with
        mfaEnabled := true
        mfaSecret := some "!B" }
    users := .single ⟨1, "acme", 7, none, "active", none, 0, 0⟩
    mfaChallenges := .single ⟨"t", "acme", 1, 0, minutes 5⟩
    otpCodes := .single ⟨3, "acme", "ann@acme.example", "email", "123456", "login", minutes 10, 0, 0⟩ }
    0

/-- Twelve calls with wrong codes: six for the code, and six for the challenge. -/
def wrongCodes : Fin 6 ⊕ Fin 6 → RouteCall
  | .inl _ => .otpVerify "acme" "ann@acme.example" "000000" "email"
  | .inr _ => .client (.login none none (.completeMfa "t" "999999"))

/-- Two calls for the code that overlap, and one for the challenge. -/
def overlapping : List ((Fin 6 ⊕ Fin 6) ⊕ Nat) :=
  [Sum.inl (Sum.inl 0), Sum.inl (Sum.inl 1), Sum.inl (Sum.inr 0), Sum.inl (Sum.inl 0),
      Sum.inl (Sum.inl 1)] ++
    List.replicate 8 (Sum.inl (Sum.inr 0))

theorem overlapping_counters :
    (∀ l' ∈ overlapping.inits,
      (∀ a ∈ (otpBudget wrongCodes 3).counter (routeRun .offline coded wrongCodes l').state, a ≤ 2) ∧
      ∀ a ∈ (challengeBudget (Fin 6 ⊕ Fin 6) "t").counter
        (routeRun .offline coded wrongCodes l').state, a ≤ 2) ∧
    (routeRun .offline coded wrongCodes overlapping).state.draws = 0 := by
  decide +kernel

/-- Three calls leave room for each other. -/
theorem run_attemptsWithin_overlapping :
    (otpBudget wrongCodes 3).Within ((otpBudget wrongCodes 3).start coded)
        (routeRun .offline coded wrongCodes overlapping) ∧
      (challengeBudget (Fin 6 ⊕ Fin 6) "t").Within
        ((challengeBudget (Fin 6 ⊕ Fin 6) "t").start coded)
        (routeRun .offline coded wrongCodes overlapping) := by
  obtain ⟨hcounters, hdraws⟩ := overlapping_counters
  have hnone : Set.Ico coded.draws (routeRun .offline coded wrongCodes overlapping).state.draws =
      ∅ := by
    rw [hdraws]
    exact Set.Ico_self 0
  have hentries : ∀ i, .inl i ∈ overlapping →
      i ∈ ({.inl 0, .inl 1, .inr 0} : Finset (Fin 6 ⊕ Fin 6)) := by
    intro i hi
    simp only [overlapping, List.mem_append, List.mem_cons, List.mem_replicate, Sum.inl.injEq,
      List.not_mem_nil, or_false] at hi
    simp only [Finset.mem_insert, Finset.mem_singleton]
    tauto
  obtain ⟨hcodes, hchallenges⟩ := run_attemptsWithin .offline coded wrongCodes overlapping
    ⟨World.offline_freshTokens, by simp [hnone], by simp [hnone], by simp [hnone]⟩
  constructor
  · exact hcodes 3 (Budget.eachTurn_spare (otpBudget_lawful .offline wrongCodes 3) _ hentries
      (by decide) fun l' hl' => (hcounters l' hl').1) overlapping (List.prefix_refl _)
  · exact hchallenges "t" (Budget.eachTurn_spare (challengeBudget_lawful .offline "t") _ hentries
      (by decide) fun l' hl' => (hcounters l' hl').2) overlapping (List.prefix_refl _)

/-- Each call reads the counter, and goes on until it is about to count. -/
def sixAtOnce : List ((Fin 6 ⊕ Fin 6) ⊕ Nat) :=
  (List.finRange 6).map (fun i => Sum.inl (Sum.inl i)) ++
    (List.finRange 6).flatMap fun i => List.replicate 4 (Sum.inl (Sum.inr i))

theorem sixAtOnce_due :
    (∀ i : Fin 6, ((((routeRun .offline coded wrongCodes sixAtOnce).threads (.inl i)).next.map
      (otpBudget wrongCodes 3).counts) = some true)) ∧
    (∀ i : Fin 6, ((((routeRun .offline coded wrongCodes sixAtOnce).threads (.inr i)).next.map
      (challengeBudget (Fin 6 ⊕ Fin 6) "t").counts) = some true)) := by
  decide +kernel

/-- **Six wrong codes for one row**, and for one challenge: each of the six calls is about to count
one. -/
theorem sixAtOnce_overspend :
    ¬ (otpBudget wrongCodes 3).Within ((otpBudget wrongCodes 3).start coded)
        (routeRun .offline coded wrongCodes sixAtOnce) ∧
      ¬ (challengeBudget (Fin 6 ⊕ Fin 6) "t").Within
        ((challengeBudget (Fin 6 ⊕ Fin 6) "t").start coded)
        (routeRun .offline coded wrongCodes sixAtOnce) := by
  obtain ⟨hcodes, hchallenges⟩ := sixAtOnce_due
  constructor
  · intro hwithin
    have hsix := hwithin (Finset.univ.map ⟨Sum.inl, Sum.inl_injective⟩) ?_
    · rw [Finset.card_map, Finset.card_univ, Fintype.card_fin] at hsix
      have hlimit : max ((otpBudget wrongCodes 3).start coded) (otpBudget wrongCodes 3).limit = 5 := by
        decide +kernel
      omega
    · intro j hj
      obtain ⟨i, -, rfl⟩ := Finset.mem_map.mp hj
      exact Budget.due_of_next _ (hcodes i)
  · intro hwithin
    have hsix := hwithin (Finset.univ.map ⟨Sum.inr, Sum.inr_injective⟩) ?_
    · rw [Finset.card_map, Finset.card_univ, Fintype.card_fin] at hsix
      have hlimit : max ((challengeBudget (Fin 6 ⊕ Fin 6) "t").start coded)
          (challengeBudget (Fin 6 ⊕ Fin 6) "t").limit = 5 := by
        decide +kernel
      omega
    · intro j hj
      obtain ⟨i, -, rfl⟩ := Finset.mem_map.mp hj
      exact Budget.due_of_next _ (hchallenges i)

end Authrs
