import Authrs.Login.Warrants
import Authrs.Store.IdentityRow
import Authrs.Store.Runs

/-!
# Replay of one-time codes

A verification marks the time step of its code, and a step is marked only after a smaller one.
Starting an enrollment and disabling the second factor reset the mark. Between two resets the
marked steps increase; but a verification that had read the identity before a reset marks its step
after it, for a secret that is no longer in force.

## Main definitions

* `Marks id step m`: a move marks a step, and was accepted
* `StepsIncrease id`: a marked step is later than all since the last reset
* `AcceptedFor`: a verification accepted a step for a secret
* `NotReplayed`: no step is accepted twice for one secret
* `SecretInForce`: a verification marks its step while the secret it has read is in force

## Main results

* `run_stepsIncrease`: the marked steps increase in every run
* `run_notReplayed`: no code is replayed in the runs that meet the condition
* `verifyTotp_ran_true`: a verification of a one-time code returns `true` by marking its step
-/

namespace Authrs

open Interaction Relational Program

variable {ι : Type}

/-- A statement that resets the mark of an identity. -/
def Resets (id : Uuid) (q : Request) : Prop :=
  (∃ enc, q = .sql (.identities (.setPendingSecret id enc))) ∨ q = .sql (.identities (.disable id))

/-- A move marks a step of an identity, and was accepted. -/
def Marks (id : Uuid) (step : Nat) (m : Move authrs ι State) : Prop :=
  m.event = did (.identities (.markStepUsed id step)) (1 : Nat)

/-- **A marked step is later** than every step marked since the last reset. -/
def StepsIncrease (id : Uuid) (older : List (Move authrs ι State)) (m : Move authrs ι State) :
    Prop :=
  ∀ step step' between m' rest, Marks id step m → older = between ++ m' :: rest →
    Marks id step' m' → (∀ x ∈ between, ¬ Resets id x.event.request) → step' < step

/-- The mark of an identity is at every step marked since the last reset, or later. -/
def MarkHolds (id : Uuid) (s : State) (log : List (Move authrs ι State)) : Prop :=
  ∀ step between m rest, log = between ++ m :: rest → Marks id step m →
    (∀ x ∈ between, ¬ Resets id x.event.request) →
    ∃ r last, s.db.identity id = some r ∧ r.mfaLastUsedStep = some last ∧ step ≤ last

section Marks

variable {w : World} {s : State} {id : Uuid} {log : List (Move authrs ι State)}

/-- A step is accepted on a row whose mark is earlier, and becomes the mark. -/
theorem accepted_row {step : Nat}
    (h : (handle w (.sql (.identities (.markStepUsed id step))) s).1 = .ok (1 : Nat)) :
    ∃ r, s.db.identity id = some r ∧ (∀ last, r.mfaLastUsedStep = some last → last < step) ∧
      (handle w (.sql (.identities (.markStepUsed id step))) s).2.db.identity id =
        some (r.withUsedStep step) := by
  have hone : s.db.identities.affected (IdentityRow.acceptsStep id step) = 1 := Except.ok.inj h
  obtain ⟨r, hmem, hacc⟩ := Table.affected_pos.mp (hone ▸ Nat.one_pos)
  have hid : r.id = id := by
    simp only [IdentityRow.acceptsStep, Bool.and_eq_true, decide_eq_true_eq] at hacc
    exact hacc.1
  have hr : s.db.identity id = some r := Table.selectOne_key.mpr ⟨hmem, hid⟩
  refine ⟨r, hr, fun last hlast => ?_, ?_⟩
  · simp only [IdentityRow.acceptsStep, hlast, Bool.and_eq_true, Option.all_some,
      decide_eq_true_eq] at hacc
    exact hacc.2
  · have hafter := Table.selectOne_update (p := IdentityRow.acceptsStep id step)
      (g := fun r => r.withUsedStep_id step) hr
    rwa [if_pos hacc] at hafter

/-- **Every exchange keeps the mark.** -/
theorem MarkHolds.move (hheld : MarkHolds id s log) (j : ι) (q : Request) :
    MarkHolds id (handle w q s).2 (⟨j, ⟨q, (handle w q s).1⟩, s⟩ :: log) := by
  intro step between m rest hl hmark hno
  cases between with
  | nil =>
    obtain ⟨rfl, rfl⟩ := List.cons.inj hl
    obtain ⟨rfl, hreply⟩ := Event.mk.inj hmark
    obtain ⟨r, -, -, hafter⟩ := accepted_row (eq_of_heq hreply)
    exact ⟨_, step, hafter, rfl, Nat.le_refl _⟩
  | cons x between =>
    obtain ⟨rfl, hrest⟩ := List.cons.inj hl
    obtain ⟨hnow, hno'⟩ := List.forall_mem_cons.mp hno
    obtain ⟨r, last, hr, hlast, hle⟩ := hheld step between m rest hrest hmark hno'
    obtain ⟨r', hr', hchange⟩ := handle_identity (w := w) q hr
    cases hchange with
    | pendingSecret enc => exact absurd (.inl ⟨enc, rfl⟩) hnow
    | mfaDisabled => exact absurd (.inr rfl) hnow
    | usedStep step' r hacc =>
      simp only [IdentityRow.acceptsStep, hlast, Bool.and_eq_true, Option.all_some,
        decide_eq_true_eq] at hacc
      exact ⟨_, step', hr', rfl, by omega⟩
    | _ => exact ⟨_, last, hr', hlast, hle⟩

/-- A step is accepted only after the steps since the last reset. -/
theorem MarkHolds.stepsIncrease (hheld : MarkHolds id s log) (j : ι) (q : Request) :
    StepsIncrease id log ⟨j, ⟨q, (handle w q s).1⟩, s⟩ := by
  rintro step step' between m' rest hmark rfl hmark' hno
  obtain ⟨rfl, hreply⟩ := Event.mk.inj hmark
  obtain ⟨r, hr, hlt, -⟩ := accepted_row (eq_of_heq hreply)
  obtain ⟨r', last, hr', hlast, hle⟩ := hheld step' between m' rest rfl hmark' hno
  obtain rfl : r = r' := Option.some.inj (hr.symm.trans hr')
  exact Nat.lt_of_le_of_lt hle (hlt last hlast)

variable [DecidableEq ι]

/-- **The marked steps increase in every run.** -/
theorem run_stepsIncrease (w : World) (s : State) (id : Uuid) (call : ι → ClientCall)
    (l : List (ι ⊕ Nat)) : EachMove (StepsIncrease id) (clientRun w s call l).log := by
  have hinv : MarkHolds id (clientRun w s call l).state (clientRun w s call l).log ∧
      EachMove (StepsIncrease id) (clientRun w s call l).log := by
    refine (clientRun_when (P := fun _ _ => True)
      (J := fun s log => MarkHolds id s log ∧ EachMove (StepsIncrease id) log) ?_ ?_ ?_ l
      (fun _ _ _ _ => trivial)).1
    · refine ⟨?_, .nil⟩
      intro step between m rest hl
      simp at hl
    · rintro s log j q ⟨hheld, hlog⟩ - -
      exact ⟨hheld.move j q, eachMove_cons.mpr ⟨hheld.stepsIncrease j q, hlog⟩⟩
    · exact fun _ _ _ h => h
  exact hinv.2

end Marks

/-! ### What a verification returns -/

theorem decryptSecret_ran {w : World} {i : Identity} {es : List (Event authrs)}
    {secret : List UInt8} :
    (MfaService.decryptSecret w i).Ran es (.ok (some secret)) ↔
      es = [] ∧ ∃ enc, i.mfaSecret = some enc ∧ MfaService.decodeSecret w enc = .ok secret := by
  unfold MfaService.decryptSecret
  cases henc : i.mfaSecret with
  | none => simp [ran_pure_ok]
  | some enc =>
    refine ran_ofExcept_ok.trans (and_congr_right fun _ => ?_)
    cases hdec : MfaService.decodeSecret w enc <;> simp [Except.map, Except.mapError, hdec]

/-- **A verification of a one-time code returns `true`** exactly by marking its step, for the
secret that it has read. -/
theorem verifyTotp_ran_true {w : World} {i : Identity} {code : String} {es : List (Event authrs)}
    (htotp : isTotpCode (normalizeCode w code) = true) :
    (MfaService.verify w i code).Ran es (.ok true) ↔
      ∃ enc secret t step, i.mfaEnabled = true ∧ i.mfaSecret = some enc ∧
        MfaService.decodeSecret w enc = .ok secret ∧
        matchingStep w secret (normalizeCode w code) (t / 1000000).toNat = some step ∧
        es = [⟨.clock, t⟩, did (.identities (.markStepUsed i.id step)) (1 : Nat)] := by
  unfold MfaService.verify
  cases hmfa : i.mfaEnabled with
  | false => simp [ran_pure_ok]
  | true =>
    simp only [if_true, htotp]
    unfold MfaService.verifyTotp
    -- The secret is decrypted, the clock is read, and the step is marked if it is not used.
    rw [ran_bind_ok]
    constructor
    · rintro ⟨es₁, es₂, found, rfl, hfound, hrest⟩
      cases found with
      | none =>
        obtain ⟨-, h⟩ := ran_pure_ok.mp hrest
        cases h
      | some secret =>
        obtain ⟨rfl, enc, henc, hdec⟩ := decryptSecret_ran.mp hfound
        obtain ⟨es₃, es₄, now, rfl, hnow, hrest⟩ := ran_bind_ok.mp hrest
        obtain ⟨es₅, es₆, t, rfl, ht, hpure⟩ := ran_bind_ok.mp hnow
        obtain rfl := ran_utcNow_ok.mp ht
        obtain ⟨rfl, rfl⟩ := ran_pure_ok.mp hpure
        cases hstep : matchingStep w secret (normalizeCode w code) (t / 1000000).toNat with
        | none =>
          rw [hstep] at hrest
          obtain ⟨-, h⟩ := ran_pure_ok.mp hrest
          cases h
        | some step =>
          rw [hstep] at hrest
          obtain ⟨es₇, es₈, touched, rfl, hmark, hpure⟩ := ran_bind_ok.mp hrest
          obtain rfl := ran_query_ok.mp hmark
          obtain ⟨rfl, hone⟩ := ran_pure_ok.mp hpure
          have htouched : touched = 1 := of_decide_eq_true hone
          subst htouched
          exact ⟨enc, secret, t, step, trivial, henc, hdec, hstep, rfl⟩
    · rintro ⟨enc, secret, t, step, -, henc, hdec, hstep, rfl⟩
      refine ⟨[], _, some secret, rfl, decryptSecret_ran.mpr ⟨rfl, enc, henc, hdec⟩, ?_⟩
      refine ran_bind_ok.mpr ⟨[⟨.clock, t⟩], _, (t / 1000000).toNat, rfl, ?_, ?_⟩
      · exact ran_bind_ok.mpr ⟨_, [], t, rfl, ran_utcNow_ok.mpr rfl, ran_pure_ok.mpr ⟨rfl, rfl⟩⟩
      · rw [hstep]
        exact ran_bind_ok.mpr ⟨_, [], (1 : Nat), rfl, ran_query_ok.mpr rfl, ran_pure_ok.mpr ⟨rfl, rfl⟩⟩

/-! ### Replayed codes -/

variable [DecidableEq ι]

/-- **A verification accepted a step for a secret**: by this move it returned `true`. -/
def AcceptedFor (w : World) (call : ι → ClientCall) (id : Uuid) (secret : List UInt8) (step : Nat)
    (older : List (Move authrs ι State)) (m : Move authrs ι State) : Prop :=
  Marks id step m ∧ ∃ i code enc, (call m.who).factor = some code ∧
    Snapshot i (own m.who older) ∧ i.id = id ∧ i.mfaSecret = some enc ∧
    MfaService.decodeSecret w enc = .ok secret ∧ Matched w secret code step (own m.who older)

/-- **No step is accepted twice for one secret.** -/
def NotReplayed (w : World) (call : ι → ClientCall) (id : Uuid)
    (older : List (Move authrs ι State)) (m : Move authrs ι State) : Prop :=
  ∀ secret step, AcceptedFor w call id secret step older m →
    ∀ between m' rest, older = between ++ m' :: rest →
      ¬ AcceptedFor w call id secret step rest m'

/-- A verification marks its step while the secret it has read is the one of the row. -/
def SecretInForce (call : ι → ClientCall) (id : Uuid) (older : List (Move authrs ι State))
    (m : Move authrs ι State) : Prop :=
  ∀ step i code r, Marks id step m → (call m.who).factor = some code →
    Snapshot i (own m.who older) → m.before.db.identity id = some r → r.mfaSecret = i.mfaSecret

/-- New secrets can be read back from their ciphertexts, and are distinct. -/
structure FreshSecrets (w : World) : Prop where
  sealed : ∀ k n enc, w.encrypt k (w.totpSecret n) = .ok enc → w.decrypt enc = .ok (w.totpSecret n)
  decodes : ∀ n, ∃ secret, w.decodeSecret (w.totpSecret n) = .ok secret
  distinct : ∀ n n' secret, w.decodeSecret (w.totpSecret n) = .ok secret →
    w.decodeSecret (w.totpSecret n') = .ok secret → n = n'

/-- The secret of a state's identity is none of those drawn later. -/
def SecretDrawnBefore (w : World) (id : Uuid) (s : State) : Prop :=
  ∀ r enc secret, s.db.identity id = some r → r.mfaSecret = some enc →
    MfaService.decodeSecret w enc = .ok secret →
    ∀ n, s.draws ≤ n → w.decodeSecret (w.totpSecret n) ≠ .ok secret

/-- The encoded secret that an exchange draws. -/
def drawnSecret (e : Event authrs) : Option String :=
  match e with
  | ⟨.newTotpSecret, t⟩ => some t
  | _ => none

/-- The encoded secret that a request stores. -/
def storedSecret (w : World) : Request → Option String
  | .sql (.identities (.setPendingSecret _ enc)) => (w.decrypt enc).toOption
  | _ => none

section Secrets

variable {w : World} {s : State} {call : ι → ClientCall} {id : Uuid}

theorem draws_secret (w : World) : Draws w w.totpSecret drawnSecret := by
  intro q s t ht
  cases q with
  | newTotpSecret =>
    cases ht
    exact ⟨rfl, Nat.lt_succ_self _⟩
  | _ => cases ht

theorem FreshSecrets.injective (hw : FreshSecrets w) : Function.Injective w.totpSecret := by
  intro n n' h
  obtain ⟨secret, hsecret⟩ := hw.decodes n
  exact hw.distinct n n' secret hsecret (h ▸ hsecret)

/-- The secrets drawn in a run are new ones. -/
theorem clientRun_drawnSecret (w : World) (s : State) (call : ι → ClientCall)
    (l : List (ι ⊕ Nat)) :
    DrawnFrom w.totpSecret drawnSecret s.draws (clientRun w s call l).state
      (clientRun w s call l).log := by
  refine (clientRun_when (P := fun _ _ => True)
    (J := fun s' log => DrawnFrom w.totpSecret drawnSecret s.draws s' log) (.nil s) ?_
    (fun _ _ d hd => hd.tick d) l (fun _ _ _ _ => trivial)).1
  intro s' log j q hd _ _
  exact hd.move (draws_secret w) j q

theorem storedSecret_eq_some {q : Request} {t : String} :
    storedSecret w q = some t ↔
      ∃ id enc, q = .sql (.identities (.setPendingSecret id enc)) ∧ w.decrypt enc = .ok t := by
  constructor
  · intro h
    unfold storedSecret at h
    split at h
    · rename_i id enc
      cases hdec : w.decrypt enc with
      | error e =>
        rw [hdec] at h
        cases h
      | ok t' =>
        rw [hdec] at h
        cases h
        exact ⟨id, enc, rfl, hdec⟩
    · cases h
  · rintro ⟨id, enc, rfl, hdec⟩
    simp [storedSecret, hdec, Except.toOption]

/-- A stored secret is the new one that its call had drawn, as its last exchange but one. -/
theorem storedSecret_drawn (hw : FreshSecrets w) {l : List (ι ⊕ Nat)}
    {newer older : List (Move authrs ι State)} {m : Move authrs ι State} {t : String}
    (hlog : (clientRun w s call l).log = newer ++ m :: older)
    (ht : storedSecret w m.event.request = some t) :
    (∃ n, s.draws ≤ n ∧ t = w.totpSecret n) ∧
      ∃ reply rest, own m.who older = ⟨.encrypt t, reply⟩ :: ⟨.newTotpSecret, t⟩ :: rest := by
  obtain ⟨id, enc, hq, hdec⟩ := storedSecret_eq_some.mp ht
  have hwarrant := clientRun_warranted hlog
  rw [hq] at hwarrant
  obtain ⟨identityId, label, i, encoded, rest, -, -, -, -, hown⟩ := hwarrant
  -- The call encrypted what it had drawn from the stream.
  have hdraw : encoded ∈ (clientRun w s call l).log.filterMap fun m => drawnSecret m.event := by
    have hmem : (⟨.newTotpSecret, encoded⟩ : Event authrs) ∈ own m.who older := by simp [hown]
    obtain ⟨x, hx, -, he⟩ := mem_own.mp hmem
    refine List.mem_filterMap.mpr ⟨x, ?_, by rw [he]; rfl⟩
    rw [hlog]
    exact List.mem_append_right _ (List.mem_cons_of_mem _ hx)
  obtain ⟨n, hn, rfl⟩ := (clientRun_drawnSecret w s call l).between encoded hdraw
  have hsealed : w.decrypt enc = .ok (w.totpSecret n) := by
    have hmem : (⟨.encrypt (w.totpSecret n), .ok enc⟩ : Event authrs) ∈ own m.who older := by
      simp [hown]
    obtain ⟨x, hx, -, he⟩ := mem_own.mp hmem
    obtain ⟨before, after, rfl⟩ := List.append_of_mem hx
    have hlogx : (clientRun w s call l).log = (newer ++ m :: before) ++ x :: after := by simp [hlog]
    obtain ⟨l', -, -, hreply⟩ := clientRun_split hlogx
    rw [he] at hreply
    exact hw.sealed _ _ _ hreply.symm
  obtain rfl : t = w.totpSecret n := Except.ok.inj (hdec.symm.trans hsealed)
  exact ⟨⟨n, hn.1, rfl⟩, _, rest, hown⟩

/-- **A secret is stored once.** -/
theorem storedSecret_once (hw : FreshSecrets w) (l : List (ι ⊕ Nat)) :
    ((clientRun w s call l).log.filterMap fun m => storedSecret w m.event.request).Nodup := by
  have hdisjoint : ∀ (e : Event authrs) t, storedSecret w e.request = some t →
      drawnSecret e = none := by
    rintro ⟨q, r⟩ t ht
    obtain ⟨id, enc, rfl, -⟩ := storedSecret_eq_some.mp ht
    rfl
  refine nodup_used (fun e => storedSecret w e.request) hdisjoint
    ((clientRun_drawnSecret w s call l).once hw.injective.injOn) ?_
  intro newer m older t hlog ht
  obtain ⟨-, reply, rest, hown⟩ := storedSecret_drawn hw hlog ht
  exact ⟨[⟨.encrypt t, reply⟩], ⟨.newTotpSecret, t⟩, rest, hown, rfl, by simp [storedSecret]⟩

/-- Where the secret of a row comes from: an enrollment stored it and nothing has reset it since,
or it is the one from the start and nothing has reset it. -/
def SecretSource (id : Uuid) (start s : State) (log : List (Move authrs ι State)) : Prop :=
  ∀ r enc, s.db.identity id = some r → r.mfaSecret = some enc →
    (∃ newer y older, log = newer ++ y :: older ∧
      y.event.request = .sql (.identities (.setPendingSecret id enc)) ∧
      ∀ x ∈ newer, ¬ Resets id x.event.request) ∨
    ((∀ x ∈ log, ¬ Resets id x.event.request) ∧
      ∃ r₀, start.db.identity id = some r₀ ∧ r₀.mfaSecret = some enc)

omit [DecidableEq ι] in
/-- **Every exchange keeps the source of the secret.** -/
theorem SecretSource.move {start s : State} {log : List (Move authrs ι State)}
    (hsource : SecretSource id start s log) (j : ι) (q : Request) :
    SecretSource id start (handle w q s).2 (⟨j, ⟨q, (handle w q s).1⟩, s⟩ :: log) := by
  intro r' enc hr' henc
  cases hr : s.db.identity id with
  | none =>
    rcases handle_identity_none (w := w) q hr with hnone | ⟨_, _, _, _, _, _, _, hnew⟩
    · rw [hr'] at hnone
      cases hnone
    · rw [hr'] at hnew
      cases hnew
      cases henc
  | some r =>
    by_cases hq : Resets id q
    · rcases hq with ⟨enc', rfl⟩ | rfl
      · have hafter : (handle w (.sql (.identities (.setPendingSecret id enc'))) s).2.db.identity id =
            some (r.withPendingSecret s.now enc') := Db.identity_updateIdentity hr
        rw [hr'] at hafter
        cases hafter
        cases henc
        exact .inl ⟨[], _, log, rfl, rfl, by simp⟩
      · have hkey : ∀ r, (IdentityRow.withMfaDisabled s.now r).id = r.id := fun r => rfl
        have hafter : (handle w (.sql (.identities (.disable id))) s).2.db.identity id =
            some (r.withMfaDisabled s.now) := @Db.identity_updateIdentity _ _ _ hkey _ hr
        rw [hr'] at hafter
        cases hafter
        cases henc
    · -- Nothing else changes the secret.
      obtain ⟨r'', hr'', hchange⟩ := handle_identity (w := w) q hr
      obtain rfl : r' = r'' := Option.some.inj (hr'.symm.trans hr'')
      have hsame : r.mfaSecret = some enc := by
        cases hchange with
        | pendingSecret enc' => exact absurd (.inl ⟨enc', rfl⟩) hq
        | mfaDisabled => exact absurd (.inr rfl) hq
        | _ => exact henc
      rcases hsource r enc hr hsame with ⟨newer, y, older, rfl, hy, hno⟩ | ⟨hno, hstart⟩
      · exact .inl ⟨_ :: newer, y, older, rfl, hy, List.forall_mem_cons.mpr ⟨hq, hno⟩⟩
      · exact .inr ⟨List.forall_mem_cons.mpr ⟨hq, hno⟩, hstart⟩

theorem clientRun_secretSource (w : World) (s : State) (id : Uuid) (call : ι → ClientCall)
    (l : List (ι ⊕ Nat)) :
    SecretSource id s (clientRun w s call l).state (clientRun w s call l).log := by
  refine (clientRun_when (P := fun _ _ => True) (J := fun s' log => SecretSource id s s' log)
    ?_ (fun _ _ j q hsource _ _ => hsource.move j q) (fun _ _ _ hsource => hsource) l
    (fun _ _ _ _ => trivial)).1
  intro r enc hr henc
  exact .inr ⟨by simp, r, hr, henc⟩

theorem decodeSecret_eq_ok {enc : String} {secret : List UInt8} :
    MfaService.decodeSecret w enc = .ok secret ↔
      ∃ t, w.decrypt enc = .ok t ∧ w.decodeSecret t = .ok secret := by
  unfold MfaService.decodeSecret
  rw [bind_eq_ok]
  refine exists_congr fun t => and_congr_right fun _ => ?_
  cases w.decodeSecret t <;> simp [Except.mapError]

/-- **A secret that was in force before a reset is not in force after it.** -/
theorem secret_not_back (hw : FreshSecrets w) (hstart : SecretDrawnBefore w id s)
    {l : List (ι ⊕ Nat)} {newer between rest : List (Move authrs ι State)}
    {m m' : Move authrs ι State}
    (hlog : (clientRun w s call l).log = newer ++ m :: (between ++ m' :: rest))
    {r r' : IdentityRow} {enc enc' : String} {secret : List UInt8}
    (hr : m.before.db.identity id = some r) (henc : r.mfaSecret = some enc)
    (hdec : MfaService.decodeSecret w enc = .ok secret)
    (hr' : m'.before.db.identity id = some r') (henc' : r'.mfaSecret = some enc')
    (hdec' : MfaService.decodeSecret w enc' = .ok secret)
    (hm' : storedSecret w m'.event.request = none) :
    ∀ x ∈ between, ¬ Resets id x.event.request := by
  obtain ⟨l₁, hl₁, hs₁, -⟩ := clientRun_split hlog
  have hsource := clientRun_secretSource w s id call l₁
  rw [hl₁, hs₁] at hsource
  have hlog' : (clientRun w s call l).log = (newer ++ m :: between) ++ m' :: rest := by simp [hlog]
  obtain ⟨l₂, hl₂, hs₂, -⟩ := clientRun_split hlog'
  have hsource' := clientRun_secretSource w s id call l₂
  rw [hl₂, hs₂] at hsource'
  obtain ⟨t, hopen, hsecret⟩ := decodeSecret_eq_ok.mp hdec
  obtain ⟨t', hopen', hsecret'⟩ := decodeSecret_eq_ok.mp hdec'
  rcases hsource r enc hr henc with ⟨n, y, o, hsplit, hy, hno⟩ | ⟨hno, -⟩
  · have hyt : storedSecret w y.event.request = some t :=
      storedSecret_eq_some.mpr ⟨id, enc, hy, hopen⟩
    rcases append_cons_cases hsplit with ⟨c, hn, -⟩ | ⟨-, rfl, -⟩ | ⟨c, hbetween, hrest⟩
    · -- The secret at `m` was stored before `m'`: nothing was reset in between.
      intro x hx
      exact hno x (hn ▸ List.mem_append_left _ hx)
    · rw [hm'] at hyt
      cases hyt
    · -- It was stored in between, so it is a new one, and `m'` had another one.
      exfalso
      have hlogy : (clientRun w s call l).log = (newer ++ m :: n) ++ y :: (c ++ m' :: rest) := by
        simp [hlog, hbetween]
      obtain ⟨⟨k, hk, rfl⟩, -⟩ := storedSecret_drawn hw hlogy hyt
      rcases hsource' r' enc' hr' henc' with ⟨n', y', o', rfl, hy', -⟩ | ⟨-, r₀, hr₀, henc₀⟩
      · have hyt' : storedSecret w y'.event.request = some t' :=
          storedSecret_eq_some.mpr ⟨id, enc', hy', hopen'⟩
        have hlogy' : (clientRun w s call l).log =
            (newer ++ m :: (between ++ m' :: n')) ++ y' :: o' := by simp [hlog]
        obtain ⟨⟨k', -, rfl⟩, -⟩ := storedSecret_drawn hw hlogy' hyt'
        obtain rfl := hw.distinct k k' secret hsecret hsecret'
        have honce : ((clientRun w s call l).log.filterMap fun m =>
            storedSecret w m.event.request).Nodup := storedSecret_once hw l
        have hkeep := List.filterMap_cons_some (f := fun m : Move authrs ι State =>
          storedSecret w m.event.request) (l := c ++ m' :: (n' ++ y' :: o')) hyt
        rw [hlogy, List.filterMap_append, hkeep] at honce
        have hfresh := (List.nodup_cons.mp (List.nodup_append.mp honce).2.1).1
        refine hfresh (List.mem_filterMap.mpr ⟨y', ?_, hyt'⟩)
        simp
      · exact hstart r₀ enc' secret hr₀ henc₀ hdec' k hk hsecret
  · intro x hx
    exact hno x (List.mem_append_left _ hx)

/-- **No code is replayed, and the marked steps increase.** The steps accepted between two resets
increase in every run; in a run whose verifications mark their steps for the secret in force, no
step is accepted twice for one secret. -/
theorem run_notReplayed (w : World) (hw : FreshSecrets w) (s : State) (id : Uuid)
    (hstart : SecretDrawnBefore w id s) (call : ι → ClientCall) (l : List (ι ⊕ Nat)) :
    EachMove (StepsIncrease id) (clientRun w s call l).log ∧
      (EachMove (SecretInForce call id) (clientRun w s call l).log →
        EachMove (NotReplayed w call id) (clientRun w s call l).log) := by
  refine ⟨run_stepsIncrease w s id call l, fun hforce => ?_⟩
  rintro newer m older hlog secret step ⟨hmark, i, code, enc, hfactor, hsnap, -, henc, hdec, -⟩
    between m' rest rfl ⟨hmark', i', code', enc', hfactor', hsnap', -, henc', hdec', -⟩
  have hlog' : (clientRun w s call l).log = (newer ++ m :: between) ++ m' :: rest := by simp [hlog]
  have hrow : ∀ (n : List (Move authrs ι State)) x o,
      (clientRun w s call l).log = n ++ x :: o → Marks id step x →
      ∃ r, x.before.db.identity id = some r := by
    intro n x o hx hmarkx
    obtain ⟨l', -, -, hreply⟩ := clientRun_split hx
    rw [hmarkx] at hreply
    obtain ⟨r, hr, -⟩ := accepted_row hreply.symm
    exact ⟨r, hr⟩
  obtain ⟨r, hr⟩ := hrow _ m _ hlog hmark
  obtain ⟨r', hr'⟩ := hrow _ m' _ hlog' hmark'
  have hsecret := hforce newer m _ hlog step i code r hmark hfactor hsnap hr
  have hsecret' := hforce _ m' rest hlog' step i' code' r' hmark' hfactor' hsnap' hr'
  have hno := secret_not_back hw hstart hlog hr (hsecret.trans henc) hdec hr'
    (hsecret'.trans henc') hdec' (by rw [hmark']; rfl)
  exact Nat.lt_irrefl step
    (run_stepsIncrease w s id call l newer m _ hlog step step between m' rest hmark rfl hmark' hno)

end Secrets

/-! ### Two calls that present one code -/

theorem World.offline_freshSecrets : FreshSecrets .offline where
  sealed k n enc h := by
    obtain rfl : "!" ++ World.offline.totpSecret n = enc := Except.ok.inj h
    simp [World.offline]
  decodes n := ⟨_, rfl⟩
  distinct n n' secret h h' := by
    have hbytes := Except.ok.inj (h.trans h'.symm)
    have hlength := congrArg List.length hbytes
    simpa [World.offline] using hlength

/-- An identity with MFA enabled. -/
def ann : IdentityRow :=
  { IdentityRow.ofHandles ⟨0, id, fun _ => 7⟩ (some "ann@acme.example") none none none none none with
    mfaEnabled := true
    mfaSecret := some "!B" }

def annEnrolled : State := .ofDb { Db.empty with identities := .single ann } 0

/-- Two requests to disable the second factor, with the same code. -/
def disableTwice (_ : Bool) : ClientCall := .mfa 7 (.disable "000000")

theorem annEnrolled_secretDrawnBefore : SecretDrawnBefore .offline 7 annEnrolled := by
  intro r enc secret hr henc hdec n _ hn
  cases hr
  cases henc
  cases hdec
  have hbytes := Except.ok.inj hn
  simp [World.offline, List.replicate_succ] at hbytes

/-- The reading of the clock in an exchange. -/
def clockOf : Event authrs → Option Time
  | ⟨.clock, t⟩ => some t
  | _ => none

theorem mem_clocks {h : List (Event authrs)} {t : Time} (ht : t ∈ h.filterMap clockOf) :
    t ∈ clocks h := by
  obtain ⟨e, he, hclock⟩ := List.mem_filterMap.mp ht
  unfold clockOf at hclock
  split at hclock
  · cases hclock
    exact he
  · cases hclock

/-- The step that an exchange marks, and the number of rows it touched. -/
def markedStep : Event authrs → Option (Uuid × Nat × Nat)
  | ⟨.sql (.identities (.markStepUsed id step)), .ok n⟩ => some (id, step, n)
  | _ => none

omit [DecidableEq ι] in
theorem marks_iff {id : Uuid} {step : Nat} {m : Move authrs ι State} :
    Marks id step m ↔ markedStep m.event = some (id, step, 1) := by
  constructor
  · intro h
    rw [h]
    rfl
  · intro h
    unfold markedStep at h
    split at h
    · rename_i heq
      cases h
      exact heq
    · cases h

/-- New backup codes with the code of the present step, and a disable call with that of the next. -/
def regenerateAndDisable : Bool → ClientCall
  | false => .mfa 7 (.backupCodes "000000")
  | true => .mfa 7 (.disable "111111")

/-- Both calls read the identity before either marks its step; the first to mark is the first to end. -/
def bothRead : List (Bool ⊕ Nat) :=
  [Sum.inl true, Sum.inl false] ++ List.replicate 6 (Sum.inl false) ++ List.replicate 6 (Sum.inl true)

/-- Both codes are accepted, for the one secret. -/
theorem bothRead_secrets :
    ((clientRun .offline annEnrolled regenerateAndDisable bothRead).log.filterMap fun m =>
        markedStep m.event) = [(7, 1, 1), (7, 0, 1)] ∧
      ∀ m ∈ (clientRun .offline annEnrolled regenerateAndDisable bothRead).log,
        (∀ i ∈ identityOf m.event, i.mfaSecret = some "!B") ∧
          ∀ r ∈ m.before.db.identity 7, r.mfaSecret = some "!B" := by
  decide +kernel

theorem run_notReplayed_bothRead :
    EachMove (NotReplayed .offline regenerateAndDisable 7)
      (clientRun .offline annEnrolled regenerateAndDisable bothRead).log := by
  obtain ⟨-, hsecrets⟩ := bothRead_secrets
  refine (run_notReplayed .offline World.offline_freshSecrets annEnrolled 7
    annEnrolled_secretDrawnBefore regenerateAndDisable bothRead).2 ?_
  rintro newer m older hlog step i code r - - hs hr
  have hmem : ∀ x ∈ m :: older,
      x ∈ (clientRun .offline annEnrolled regenerateAndDisable bothRead).log := by
    intro x hx
    rw [hlog]
    exact List.mem_append_right _ hx
  obtain ⟨x, hx, -, hi⟩ := hs.mem
  rw [(hsecrets m (hmem m List.mem_cons_self)).2 r hr,
    (hsecrets x (hmem x (List.mem_cons_of_mem _ hx))).1 i hi]

/-- Both calls read the identity; the first disables the second factor, and the second checks its
code after that. -/
def disableInside : List (Bool ⊕ Nat) :=
  [Sum.inl false, Sum.inl true] ++ List.replicate 3 (Sum.inl false) ++ List.replicate 2 (Sum.inl true)

def disableInsideLog : List (Move authrs Bool State) :=
  (clientRun .offline annEnrolled disableTwice disableInside).log

theorem disableInsideLog_marks :
    (disableInsideLog.map fun m => (m.who, markedStep m.event)) =
      [(true, some (7, 0, 1)), (true, none), (false, none), (false, some (7, 0, 1)),
        (false, none), (true, none), (false, none)] := by
  decide +kernel

/-- What the two calls have read before they mark the step. -/
theorem disableInsideLog_reads :
    ((own true (disableInsideLog.drop 1)).filterMap identityOf).head? = some ann.toIdentity ∧
      (0 : Time) ∈ (own true (disableInsideLog.drop 1)).filterMap clockOf ∧
      ((own false (disableInsideLog.drop 4)).filterMap identityOf).head? = some ann.toIdentity ∧
      (0 : Time) ∈ (own false (disableInsideLog.drop 4)).filterMap clockOf := by
  decide +kernel

/-- A mark of the step 0 by a call that has read the identity and the clock accepts it. -/
theorem acceptedFor_ann {j : Bool} {older : List (Move authrs Bool State)}
    {m : Move authrs Bool State} (hwho : m.who = j) (hmark : Marks 7 0 m)
    (hread : ((own j older).filterMap identityOf).head? = some ann.toIdentity)
    (hclock : (0 : Time) ∈ (own j older).filterMap clockOf) :
    AcceptedFor .offline disableTwice 7 [66] 0 older m := by
  subst hwho
  refine ⟨hmark, ann.toIdentity, "000000", "!B", rfl, hread, rfl, rfl, ?_, ?_, 0, mem_clocks hclock, ?_⟩
  · decide +kernel
  · decide +kernel
  · decide +kernel

/-- **One code, accepted twice.** -/
theorem disableInside_replays :
    ¬ EachMove (NotReplayed .offline disableTwice 7)
      (clientRun .offline annEnrolled disableTwice disableInside).log := by
  change ¬ EachMove (NotReplayed .offline disableTwice 7) disableInsideLog
  intro hnot
  have hmarks := disableInsideLog_marks
  obtain ⟨hread, hclock, hread', hclock'⟩ := disableInsideLog_reads
  simp only [List.map_eq_cons_iff] at hmarks
  obtain ⟨m, rest, hlog, hm, a, rest, rfl, -, b, rest, rfl, -, m', rest, rfl, hm', -⟩ := hmarks
  rw [hlog] at hread hclock hread' hclock'
  obtain ⟨hwho, hmark⟩ := Prod.mk.inj hm
  obtain ⟨hwho', hmark'⟩ := Prod.mk.inj hm'
  exact hnot [] m _ hlog [66] 0 (acceptedFor_ann hwho (marks_iff.mpr hmark) hread hclock) [a, b] m'
    rest rfl (acceptedFor_ann hwho' (marks_iff.mpr hmark') hread' hclock')

end Authrs
