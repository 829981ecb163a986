import Authrs.Login.Clients

/-!
# The life of a challenge

In every run of clients, a challenge token is inserted at most once, since its inserter drew it at
random; so the rows of `mfa_challenges` stem from the recorded inserts, and a row that was deleted
by its token never comes back. Hence a token is redeemed at most once, however the statements of
the calls interleave.

## Main definitions

* `insertedToken`, `redeemedToken`: the challenge tokens that moves insert and redeem
* `Inserts`: a move inserts a row
* `ChallengeInv`: the invariant

## Main results

* `ChallengeInv.move`: every exchange of a client keeps the invariant
* `run_challengeInv`: the invariant holds after every schedule
-/

namespace Authrs

open Interaction Relational

section Moves

variable {ι : Type}

/-- The token of the challenge that a move inserts. -/
def insertedToken (m : Move authrs ι State) : Option String :=
  match m.event with
  | ⟨.sql (.challenges (.insert token ..)), .ok _⟩ => some token
  | _ => none

/-- The token of the one challenge that a move deletes by its token. -/
def redeemedToken (m : Move authrs ι State) : Option String :=
  match m.event with
  | ⟨.sql (.challenges (.delete token)), .ok n⟩ => if n = (1 : Nat) then some token else none
  | _ => none

/-- A move inserts a challenge, with the tenant as `VARCHAR(255)` stores it. -/
def Inserts (m : Move authrs ι State) (r : ChallengeRow) : Prop :=
  ∃ tenantId n, m.event = did (.challenges (.insert r.token tenantId r.userId r.expiresAt)) n ∧
    varcharReq 255 tenantId = .ok r.tenantId

/-- Two rows of one challenge, up to the attempts. -/
def ChallengeRow.Same (r r' : ChallengeRow) : Prop :=
  r.token = r'.token ∧ r.tenantId = r'.tenantId ∧ r.userId = r'.userId ∧
    r.expiresAt = r'.expiresAt

theorem ChallengeRow.Same.refl (r : ChallengeRow) : r.Same r := ⟨rfl, rfl, rfl, rfl⟩

theorem Inserts.of_same {m : Move authrs ι State} {r r' : ChallengeRow} (hm : Inserts m r')
    (h : r.Same r') : Inserts m r := by
  obtain ⟨tenantId, n, he, ht⟩ := hm
  obtain ⟨h₁, h₂, h₃, h₄⟩ := h
  exact ⟨tenantId, n, by rw [he, h₁, h₃, h₄], by rw [ht, h₂]⟩

theorem Inserts.insertedToken_eq {m : Move authrs ι State} {r : ChallengeRow}
    (hm : Inserts m r) : insertedToken m = some r.token := by
  obtain ⟨tenantId, n, he, -⟩ := hm
  rw [insertedToken, he]

/-- A move inserts one row, up to the attempts. -/
theorem Inserts.same {m : Move authrs ι State} {r r' : ChallengeRow} (hm : Inserts m r)
    (hm' : Inserts m r') : r.Same r' := by
  obtain ⟨tenantId, n, he, ht⟩ := hm
  obtain ⟨tenantId', n', he', ht'⟩ := hm'
  rw [he] at he'
  simp only [did, Event.mk.injEq, Request.sql.injEq, Sql.challenges.injEq,
    ChallengeStmt.insert.injEq] at he'
  obtain ⟨⟨h₁, rfl, h₃, h₄⟩, -⟩ := he'
  exact ⟨h₁, Except.ok.inj (ht.symm.trans ht'), h₃, h₄⟩

theorem issued_of_insertedToken {m : Move authrs ι State} {t : String}
    (h : insertedToken m = some t) : issued m.event.request ≠ none := by
  unfold insertedToken at h
  split at h
  · rename_i he
    rw [he]
    simp [issued]
  · cases h

theorem redeemedToken_eq_some {m : Move authrs ι State} {t : String} :
    redeemedToken m = some t ↔ m.event = did (.challenges (.delete t)) 1 := by
  obtain ⟨i, ⟨q, r⟩, s⟩ := m
  constructor
  · intro h
    unfold redeemedToken at h
    split at h
    · rename_i token n he
      split at h
      · rename_i hn
        cases h
        rw [← hn]
        exact he
      · cases h
    · cases h
  · rintro ⟨⟩
    rfl

end Moves

section Invariant

variable {ι : Type} [DecidableEq ι] {w : World} {s : State} {log : List (Move authrs ι State)}

/-- **The life of the challenges in a run.** -/
structure ChallengeInv (w : World) (s : State) (log : List (Move authrs ι State)) : Prop where
  /-- The random tokens are apart. -/
  drawn : Drawn w s log
  /-- A challenge is inserted under a token that its inserter drew. -/
  source : ∀ m ∈ log, ∀ t, insertedToken m = some t → ⟨.randomToken, t⟩ ∈ own m.who log
  /-- A token is inserted once. -/
  once : (log.filterMap insertedToken).Nodup
  /-- Every row was inserted. -/
  rows : ∀ r ∈ s.db.mfaChallenges, ∃ m ∈ log, Inserts m r
  /-- A redeemed challenge was inserted, and is gone. -/
  gone : ∀ t ∈ log.filterMap redeemedToken, t ∈ log.filterMap insertedToken ∧
    ∀ r ∈ s.db.mfaChallenges, r.token ≠ t
  /-- A token is redeemed once. -/
  redeemedOnce : (log.filterMap redeemedToken).Nodup

namespace ChallengeInv

/-- An exchange that inserts and redeems nothing, and adds no challenge. -/
theorem idle (hw : FreshTokens w) (hinv : ChallengeInv w s log) {i : ι} {q : Request}
    (hins : insertedToken (⟨i, ⟨q, (handle w q s).1⟩, s⟩ : Move authrs ι State) = none)
    (hred : redeemedToken (⟨i, ⟨q, (handle w q s).1⟩, s⟩ : Move authrs ι State) = none)
    (hrows : ∀ r ∈ (handle w q s).2.db.mfaChallenges, ∃ r' ∈ s.db.mfaChallenges, r.Same r') :
    ChallengeInv w (handle w q s).2 (⟨i, ⟨q, (handle w q s).1⟩, s⟩ :: log) where
  drawn := hinv.drawn.move hw i q
  source m hm t ht := by
    rcases List.mem_cons.mp hm with rfl | hm
    · rw [hins] at ht
      cases ht
    · obtain ⟨m', hm', hwho, he⟩ := mem_own.mp (hinv.source m hm t ht)
      exact mem_own.mpr ⟨m', List.mem_cons_of_mem _ hm', hwho, he⟩
  once := by
    rw [List.filterMap_cons_none hins]
    exact hinv.once
  rows r hr := by
    obtain ⟨r', hr', hsame⟩ := hrows r hr
    obtain ⟨m, hm, hmr⟩ := hinv.rows r' hr'
    exact ⟨m, List.mem_cons_of_mem _ hm, hmr.of_same hsame⟩
  gone t ht := by
    rw [List.filterMap_cons_none hred] at ht
    rw [List.filterMap_cons_none hins]
    obtain ⟨hmem, hnone⟩ := hinv.gone t ht
    refine ⟨hmem, fun r hr => ?_⟩
    obtain ⟨r', hr', hsame⟩ := hrows r hr
    rw [hsame.1]
    exact hnone r' hr'
  redeemedOnce := by
    rw [List.filterMap_cons_none hred]
    exact hinv.redeemedOnce

/-- A purge of expired challenges. -/
theorem purge (hw : FreshTokens w) (hinv : ChallengeInv w s log) (i : ι) :
    ChallengeInv w (handle w (.sql (.challenges .deleteExpired)) s).2
      (⟨i, ⟨_, (handle w (.sql (.challenges .deleteExpired)) s).1⟩, s⟩ :: log) := by
  refine hinv.idle hw rfl rfl fun r hr => ?_
  exact ⟨r, (Table.mem_delete.mp hr).1, .refl r⟩

/-- A failed attempt on a challenge. -/
theorem attempt (hw : FreshTokens w) (hinv : ChallengeInv w s log) (i : ι) (token : String) :
    ChallengeInv w (handle w (.sql (.challenges (.incrementAttempts token))) s).2
      (⟨i, ⟨_, (handle w (.sql (.challenges (.incrementAttempts token))) s).1⟩, s⟩ :: log) := by
  refine hinv.idle hw rfl rfl fun r hr => ?_
  simp only [handle, State.afterSql, Sql.exec, ChallengeStmt.exec] at hr
  split at hr
  · rename_i x db hx
    split at hx
    · cases hx
    · cases hx
      have hupdated : r ∈ s.db.mfaChallenges.update (fun r => r.token = token)
        ChallengeRow.withAttempt ChallengeRow.withAttempt_token := hr
      obtain ⟨r', hr', rfl⟩ := Table.mem_update.mp hupdated
      refine ⟨r', hr', ?_⟩
      split
      · exact ⟨rfl, rfl, rfl, rfl⟩
      · exact .refl r'
  · exact ⟨r, hr, .refl r⟩

/-- A deletion by token: it redeems the challenge, or there is none. -/
theorem redeem (hw : FreshTokens w) (hinv : ChallengeInv w s log) (i : ι) (token : String) :
    ChallengeInv w (handle w (.sql (.challenges (.delete token))) s).2
      (⟨i, ⟨_, (handle w (.sql (.challenges (.delete token))) s).1⟩, s⟩ :: log) := by
  have hrows : ∀ r ∈ (handle w (.sql (.challenges (.delete token))) s).2.db.mfaChallenges,
      r ∈ s.db.mfaChallenges ∧ r.token ≠ token := by
    intro r hr
    obtain ⟨hmem, hne⟩ := Table.mem_delete.mp hr
    exact ⟨hmem, by simpa using hne⟩
  cases hred : redeemedToken (⟨i, ⟨_, (handle w (.sql (.challenges (.delete token))) s).1⟩, s⟩ :
      Move authrs ι State) with
  | none => exact hinv.idle hw rfl hred fun r hr => ⟨r, (hrows r hr).1, .refl r⟩
  | some t =>
    -- One row was touched, so the challenge was there until now.
    have he := redeemedToken_eq_some.mp hred
    obtain rfl : token = t := by
      injection he with hreq _
      cases hreq
      rfl
    have hone : s.db.mfaChallenges.affected (fun r => r.token = token) = 1 :=
      Except.ok.inj (eq_of_heq (Event.mk.inj he).2)
    obtain ⟨r, hr, hrt⟩ := Table.affected_pos.mp (hone ▸ Nat.one_pos)
    obtain rfl : r.token = token := by simpa using hrt
    obtain ⟨m, hm, hmr⟩ := hinv.rows r hr
    have hins : r.token ∈ log.filterMap insertedToken :=
      List.mem_filterMap.mpr ⟨m, hm, hmr.insertedToken_eq⟩
    refine ⟨hinv.drawn.move hw i _, ?_, ?_, ?_, ?_, ?_⟩
    · intro m hm t ht
      rcases List.mem_cons.mp hm with rfl | hm
      · cases ht
      · obtain ⟨m', hm', hwho, he⟩ := mem_own.mp (hinv.source m hm t ht)
        exact mem_own.mpr ⟨m', List.mem_cons_of_mem _ hm', hwho, he⟩
    · exact hinv.once
    · intro r' hr'
      obtain ⟨m', hm', hmr'⟩ := hinv.rows r' (hrows r' hr').1
      exact ⟨m', List.mem_cons_of_mem _ hm', hmr'⟩
    · intro t ht
      rw [List.filterMap_cons_some hred] at ht
      rcases List.mem_cons.mp ht with rfl | ht
      · exact ⟨hins, fun r' hr' => (hrows r' hr').2⟩
      · obtain ⟨hmem, hnone⟩ := hinv.gone t ht
        exact ⟨hmem, fun r' hr' => hnone r' (hrows r' hr').1⟩
    · rw [List.filterMap_cons_some hred, List.nodup_cons]
      exact ⟨fun hmem => (hinv.gone _ hmem).2 r hr rfl, hinv.redeemedOnce⟩

/-- An insert, under a token that the call has drawn, as its first credential. -/
theorem insert (hw : FreshTokens w) (hinv : ChallengeInv w s log) (i : ι)
    {token tenantId : String} {userId : Uuid} {expiresAt : Time}
    (hown : ⟨.randomToken, token⟩ ∈ own i log)
    (hfirst : ∀ e ∈ own i log, issued e.request = none) :
    ChallengeInv w (handle w (.sql (.challenges (.insert token tenantId userId expiresAt))) s).2
      (⟨i, ⟨_, (handle w (.sql (.challenges (.insert token tenantId userId expiresAt))) s).1⟩, s⟩ ::
        log) := by
  have hdrawn := hinv.drawn.move hw i
    (.sql (.challenges (.insert token tenantId userId expiresAt)))
  -- Whoever had inserted the token before would be this very call.
  have hnew : token ∉ log.filterMap insertedToken := by
    intro hmem
    obtain ⟨m, hm, hmt⟩ := List.mem_filterMap.mp hmem
    have hwho := hinv.drawn.unique (hinv.source m hm token hmt) hown
    exact issued_of_insertedToken hmt (hfirst _ (mem_own.mpr ⟨m, hm, hwho, rfl⟩))
  cases hx : insertChallenge s.db token tenantId userId expiresAt with
  | error e =>
    have hrep : (handle w (.sql (.challenges (.insert token tenantId userId expiresAt))) s).1 =
        .error e := congrArg (Except.map Prod.fst) hx
    have hdb : (handle w (.sql (.challenges (.insert token tenantId userId expiresAt))) s).2.db =
        s.db := by
      simp only [handle, State.afterSql, Sql.exec, ChallengeStmt.exec, hx]
    refine hinv.idle hw ?_ rfl fun r hr => ⟨r, hdb ▸ hr, .refl r⟩
    rw [hrep]
    rfl
  | ok x =>
    obtain ⟨n, db⟩ := x
    have hrep : (handle w (.sql (.challenges (.insert token tenantId userId expiresAt))) s).1 =
        .ok n := congrArg (Except.map Prod.fst) hx
    have hdb : (handle w (.sql (.challenges (.insert token tenantId userId expiresAt))) s).2.db =
        db := by
      simp only [handle, State.afterSql, Sql.exec, ChallengeStmt.exec, hx]
    obtain ⟨token', tenantId', t, htok, hten, hins, rfl⟩ := insertChallenge_ok hx
    obtain rfl : token' = token := by
      obtain ⟨m, hm, -, he⟩ := mem_own.mp hown
      obtain ⟨k, -, rfl⟩ := hinv.drawn.below token
        (List.mem_filterMap.mpr ⟨m, hm, drawnToken_eq_some.mpr he⟩)
      exact hw.varcharReq_token htok
    have hrows : ∀ r, r ∈ (handle w
        (.sql (.challenges (.insert token' tenantId userId expiresAt))) s).2.db.mfaChallenges →
        r = ⟨token', tenantId', userId, 0, expiresAt⟩ ∨ r ∈ s.db.mfaChallenges := by
      intro r hr
      rw [hdb] at hr
      exact (Table.mem_insert? hins).mp hr
    have hstamp : insertedToken (⟨i, ⟨_, (handle w
        (.sql (.challenges (.insert token' tenantId userId expiresAt))) s).1⟩, s⟩ :
          Move authrs ι State) = some token' := by
      rw [hrep]
      rfl
    refine ⟨hdrawn, ?_, ?_, ?_, ?_, hinv.redeemedOnce⟩
    · intro m hm t' ht'
      rcases List.mem_cons.mp hm with rfl | hm
      · rw [hstamp] at ht'
        cases ht'
        rw [own_cons_self]
        exact List.mem_cons_of_mem _ hown
      · obtain ⟨m', hm', hwho, he⟩ := mem_own.mp (hinv.source m hm t' ht')
        exact mem_own.mpr ⟨m', List.mem_cons_of_mem _ hm', hwho, he⟩
    · rw [List.filterMap_cons_some hstamp, List.nodup_cons]
      exact ⟨hnew, hinv.once⟩
    · intro r hr
      rcases hrows r hr with rfl | hr
      · refine ⟨_, List.mem_cons_self, tenantId, n, ?_, hten⟩
        rw [hrep]
      · obtain ⟨m, hm, hmr⟩ := hinv.rows r hr
        exact ⟨m, List.mem_cons_of_mem _ hm, hmr⟩
    · intro t' ht'
      obtain ⟨hmem, hnone⟩ := hinv.gone t' ht'
      rw [List.filterMap_cons_some hstamp]
      refine ⟨List.mem_cons_of_mem _ hmem, fun r hr => ?_⟩
      rcases hrows r hr with rfl | hr
      · rintro rfl
        exact hnew hmem
      · exact hnone r hr

/-- **Every exchange of a client keeps the invariant.** -/
theorem move (hw : FreshTokens w) (hinv : ChallengeInv w s log) (i : ι) (q : Request)
    (hg : ∀ token tenantId userId expiresAt,
      q = .sql (.challenges (.insert token tenantId userId expiresAt)) →
        ⟨.randomToken, token⟩ ∈ own i log ∧ ∀ e ∈ own i log, issued e.request = none) :
    ChallengeInv w (handle w q s).2 (⟨i, ⟨q, (handle w q s).1⟩, s⟩ :: log) := by
  by_cases hq : ∃ x, q = .sql (.challenges x)
  · obtain ⟨x, rfl⟩ := hq
    cases x with
    | deleteExpired => exact hinv.purge hw i
    | get token => exact hinv.idle hw rfl rfl fun r hr => ⟨r, hr, .refl r⟩
    | incrementAttempts token => exact hinv.attempt hw i token
    | delete token => exact hinv.redeem hw i token
    | insert token tenantId userId expiresAt =>
      obtain ⟨hown, hfirst⟩ := hg _ _ _ _ rfl
      exact hinv.insert hw i hown hfirst
  · have hne : ∀ x, q ≠ .sql (.challenges x) := fun x hx => hq ⟨x, hx⟩
    refine hinv.idle hw ?_ ?_ fun r hr => ⟨r, ?_, .refl r⟩
    · unfold insertedToken
      split
      · rename_i he
        exact absurd (Event.mk.inj he).1 (hne _)
      · rfl
    · unfold redeemedToken
      split
      · rename_i he
        exact absurd (Event.mk.inj he).1 (hne _)
      · rfl
    · rwa [handle_mfaChallenges w s hne] at hr

theorem tick (hinv : ChallengeInv w s log) (d : Nat) : ChallengeInv w (s.tick d) log :=
  ⟨hinv.drawn.tick d, hinv.source, hinv.once, hinv.rows, hinv.gone, hinv.redeemedOnce⟩

theorem start (hs : s.db.mfaChallenges = ∅) :
    ChallengeInv w s ([] : List (Move authrs ι State)) where
  drawn := ⟨by simp, List.nodup_nil⟩
  source := by simp
  once := List.nodup_nil
  rows r hr := by
    rw [hs] at hr
    exact absurd hr (Table.not_mem_empty r)
  gone := by simp
  redeemedOnce := List.nodup_nil

end ChallengeInv

end Invariant

/-! ### Runs of clients -/

section Runs

variable {ι : Type} [DecidableEq ι]

/-- **A run of clients**: any number of calls, interleaved by a schedule, while time passes. -/
def clientRun (w : World) (s : State) (call : ι → ClientCall) (l : List (ι ⊕ Nat)) :
    Config authrs Failure Unit ι State :=
  (Config.start s fun i => (call i).run w).run (handle w) State.tick l

theorem guarantee_of_insert {w : World} {c : ClientCall} {h : List (Event authrs)}
    {e : Event authrs} (hg : c.Guarantee w h e) {token tenantId : String} {userId : Uuid}
    {expiresAt : Time}
    (he : e.request = .sql (.challenges (.insert token tenantId userId expiresAt))) :
    ⟨.randomToken, token⟩ ∈ h ∧ ∀ e' ∈ h, issued e'.request = none := by
  have hi : issued e.request = some (.challenge, tenantId, userId) := by rw [he]; rfl
  cases c with
  | login ip userAgent c => exact (hg _ _ _ hi).1.challenge _ _ _ _ he
  | _ =>
    have hnone : issued e.request = none := hg
    rw [hi] at hnone
    cases hnone

/-- **The invariant holds after every schedule**, from a state without challenges. -/
theorem run_challengeInv {w : World} {s : State} (hw : FreshTokens w)
    (hs : s.db.mfaChallenges = ∅) (call : ι → ClientCall) (l : List (ι ⊕ Nat)) :
    ChallengeInv w (clientRun w s call l).state (clientRun w s call l).log := by
  refine Config.run_invariant (J := fun s log => ChallengeInv w s log)
    (C := fun i => (call i).contract w) (fun i => (call i).run_keeps w)
    (fun _ _ _ => trivial) (.start hs) ?_ (fun s log d hinv => hinv.tick d) l
  intro s log i q hinv hg
  refine hinv.move hw i q fun token tenantId userId expiresAt hq => ?_
  exact guarantee_of_insert hg hq

theorem clientRun_guaranteed {w : World} {s : State} {call : ι → ClientCall}
    {l : List (ι ⊕ Nat)} {newer older : List (Move authrs ι State)} {m : Move authrs ι State}
    (hlog : (clientRun w s call l).log = newer ++ m :: older) :
    (call m.who).Guarantee w (own m.who older) m.event :=
  Config.run_guaranteed (C := fun i => (call i).contract w) (fun i => (call i).run_keeps w)
    (fun _ _ _ => trivial) l newer m older hlog

/-- A move of a run was made by a shorter run, and was answered by the handler. -/
theorem clientRun_split {w : World} {s : State} {call : ι → ClientCall}
    {l : List (ι ⊕ Nat)} {newer older : List (Move authrs ι State)} {m : Move authrs ι State}
    (hlog : (clientRun w s call l).log = newer ++ m :: older) :
    ∃ l', (clientRun w s call l').log = older ∧ (clientRun w s call l').state = m.before ∧
      m.event.reply = (handle w m.event.request m.before).1 := by
  obtain ⟨l', k, -, hlog', hstate, -, hreply⟩ := Config.run_log_split l hlog
  exact ⟨l', hlog', hstate, hreply⟩

end Runs

end Authrs
