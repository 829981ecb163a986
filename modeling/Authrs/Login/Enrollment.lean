import Authrs.Login.Warrants
import Authrs.Store.IdentityRow

/-!
# Enrollment under concurrency

Starting an enrollment, confirming it and turning the second factor off each read the identity
first and update its row later. The updates do not repeat what the call has checked: starting an
enrollment writes `mfa_enabled = false` whatever the row says by then, and confirming it enables
whatever secret is in the row by then.

## Main definitions

* `MfaOn id db`: the second factor of an identity is on
* `SwitchedOffByFactor`: it goes off by a disable call whose `verify` returned `true`
* `BeginsWhileOff`: an enrollment starts while the second factor is off
* `ProvedSecretInForce`: a second factor that is on has the secret that its enabler proved
* `EnablesItsSecret`: a second factor is enabled with the secret its call had read

## Main results

* `run_switchedOffByFactor_iff`: the runs in which only a verified disable call switches off
* `run_provedSecretInForce_iff`: the runs in which the secret in force is always a proved one
-/

namespace Authrs

open Interaction

/-- The second factor of an identity is on. -/
def MfaOn (id : Uuid) (db : Db) : Prop := ∃ r, db.identity id = some r ∧ r.mfaEnabled = true

section Rows

variable {w : World} {s : State} {id : Uuid} {r : IdentityRow} {q : Request}

theorem mfaOn_of_row {db : Db} (hr : db.identity id = some r) :
    MfaOn id db ↔ r.mfaEnabled = true := by
  constructor
  · rintro ⟨r', hr', hon⟩
    rwa [Option.some.inj (hr.symm.trans hr')]
  · exact fun hon => ⟨r, hr, hon⟩

/-- A new identity has no second factor. -/
theorem mfaOn_of_none (hr : s.db.identity id = none) : ¬ MfaOn id (handle w q s).2.db := by
  rintro ⟨r', hr', hon⟩
  rcases handle_identity_none (w := w) q hr with hnone | ⟨_, _, _, _, _, _, _, hnew⟩
  · rw [hr'] at hnone
    cases hnone
  · rw [hr'] at hnew
    cases hnew
    cases hon

/-- **What switches a second factor off**: starting an enrollment, or disabling it. -/
theorem switchedOff_cases (hon : MfaOn id s.db) (hoff : ¬ MfaOn id (handle w q s).2.db) :
    (∃ enc, q = .sql (.identities (.setPendingSecret id enc))) ∨
      q = .sql (.identities (.disable id)) := by
  obtain ⟨r, hr, hmfa⟩ := hon
  obtain ⟨r', hr', hchange⟩ := handle_identity (w := w) q hr
  have hkeep : r'.mfaEnabled ≠ true := fun h => hoff ⟨r', hr', h⟩
  cases hchange with
  | pendingSecret enc => exact .inl ⟨enc, rfl⟩
  | mfaDisabled => exact .inr rfl
  | mfaEnabled => exact absurd rfl hkeep
  | _ => exact absurd hmfa hkeep

/-- What switches a second factor on leaves its secret alone. -/
theorem switchedOn_cases (hr : s.db.identity id = some r) (hoff : r.mfaEnabled = false)
    (hon : MfaOn id (handle w q s).2.db) :
    (∃ hashes, q = .sql (.identities (.enable id hashes))) ∧
      (handle w q s).2.db.identity id = some (r.withMfaEnabled s.now) := by
  obtain ⟨r', hr', hmfa⟩ := hon
  obtain ⟨r'', hr'', hchange⟩ := handle_identity (w := w) q hr
  obtain rfl : r' = r'' := Option.some.inj (hr'.symm.trans hr'')
  have hflip : r'.mfaEnabled ≠ r.mfaEnabled := by simp [hmfa, hoff]
  cases hchange with
  | mfaEnabled hashes => exact ⟨⟨hashes, rfl⟩, hr'⟩
  | pendingSecret => cases hmfa
  | mfaDisabled => cases hmfa
  | _ => exact absurd rfl hflip

/-- While a second factor stays on, its secret stays. -/
theorem secret_of_staysOn {r' : IdentityRow} (hr : s.db.identity id = some r)
    (hr' : (handle w q s).2.db.identity id = some r') (hon' : r'.mfaEnabled = true) :
    r'.mfaSecret = r.mfaSecret := by
  obtain ⟨r'', hr'', hchange⟩ := handle_identity (w := w) q hr
  obtain rfl : r' = r'' := Option.some.inj (hr'.symm.trans hr'')
  cases hchange with
  | pendingSecret => cases hon'
  | mfaDisabled => cases hon'
  | _ => rfl

/-- Starting an enrollment switches a second factor off. -/
theorem handle_setPendingSecret (enc : String) (hr : s.db.identity id = some r) :
    (handle w (.sql (.identities (.setPendingSecret id enc))) s).2.db.identity id =
      some (r.withPendingSecret s.now enc) :=
  Db.identity_updateIdentity hr

end Rows

variable {ι : Type} [DecidableEq ι]

/-! ### Switching the second factor off -/

/-- **The second factor goes off only by a disable call whose `verify` returned `true`**, for the
identity that the call had read. -/
def SwitchedOffByFactor (w : World) (call : ι → ClientCall) (id : Uuid)
    (older : List (Move authrs ι State)) (m : Move authrs ι State) : Prop :=
  MfaOn id m.before.db → ¬ MfaOn id (m.after (handle w)).db →
    ∃ identityId code i, call m.who = .mfa identityId (.disable code) ∧
      Snapshot i (own m.who older) ∧ i.id = id ∧ Verified w i code (own m.who older)

/-- An enrollment stores its secret while the second factor is off. -/
def BeginsWhileOff (id : Uuid) (_ : List (Move authrs ι State)) (m : Move authrs ι State) : Prop :=
  ∀ enc, m.event.request = .sql (.identities (.setPendingSecret id enc)) → ¬ MfaOn id m.before.db

/-- **Only a verified disable call switches the second factor off** in exactly the runs whose
enrollments start while it is off. -/
theorem run_switchedOffByFactor_iff (w : World) (s : State) (id : Uuid) (call : ι → ClientCall)
    (l : List (ι ⊕ Nat)) :
    EachMove (SwitchedOffByFactor w call id) (clientRun w s call l).log ↔
      EachMove (BeginsWhileOff id) (clientRun w s call l).log := by
  constructor
  · intro hoff newer m older hlog enc hq hon
    have hm := clientRun_warranted hlog
    have hafter : ¬ MfaOn id (m.after (handle w)).db := by
      obtain ⟨r, hr, -⟩ := hon
      unfold Move.after
      rw [hq, mfaOn_of_row (handle_setPendingSecret enc hr)]
      simp [IdentityRow.withPendingSecret]
    obtain ⟨identityId, code, i, hdisable, -⟩ := hoff newer m older hlog hon hafter
    -- The call of the request is one that starts an enrollment.
    rw [hq] at hm
    obtain ⟨identityId', label, -, -, -, henable, -⟩ := hm
    rw [hdisable] at henable
    cases henable
  · intro hbegin newer m older hlog hon hoff
    have hm := clientRun_warranted hlog
    rcases switchedOff_cases hon hoff with ⟨enc, hq⟩ | hq
    · exact absurd hon (hbegin newer m older hlog enc hq)
    · rw [hq] at hm
      obtain ⟨identityId, code, i, hcall, hs, hid, -, hverified⟩ := hm
      exact ⟨identityId, code, i, hcall, hs, hid, hverified⟩

/-! ### The secret that is enabled -/

/-- **A second factor that is on has the secret that its enabler proved**: the confirmation that
switched it on had read the secret in force, and found its code to match. -/
def ProvedSecretInForce (w : World) (call : ι → ClientCall) (id : Uuid) (s : State)
    (log : List (Move authrs ι State)) : Prop :=
  ∀ r, s.db.identity id = some r → r.mfaEnabled = true →
    ∃ newer m older, log = newer ++ m :: older ∧
      ¬ MfaOn id m.before.db ∧ (∀ x ∈ newer, MfaOn id x.before.db) ∧
      ∃ hashes identityId code i step,
        m.event.request = .sql (.identities (.enable id hashes)) ∧
        call m.who = .mfa identityId (.verify code) ∧ Snapshot i (own m.who older) ∧ i.id = id ∧
        Confirmed w i code step (own m.who older) ∧ r.mfaSecret = i.mfaSecret

/-- A second factor is switched on with the secret that its call had read. -/
def EnablesItsSecret (w : World) (id : Uuid) (older : List (Move authrs ι State))
    (m : Move authrs ι State) : Prop :=
  ∀ i r, m.before.db.identity id = some r → r.mfaEnabled = false →
    MfaOn id (m.after (handle w)).db → Snapshot i (own m.who older) → r.mfaSecret = i.mfaSecret

/-- **One exchange keeps the proved secret in force**, if it enables its own. -/
theorem ProvedSecretInForce.move {w : World} {call : ι → ClientCall} {id : Uuid} {s : State}
    {log : List (Move authrs ι State)} {j : ι} {q : Request}
    (hproved : ProvedSecretInForce w call id s log) (hw : Warranted w (call j) (own j log) q)
    (hits : EnablesItsSecret w id log ⟨j, ⟨q, (handle w q s).1⟩, s⟩) :
    ProvedSecretInForce w call id (handle w q s).2 (⟨j, ⟨q, (handle w q s).1⟩, s⟩ :: log) := by
  intro r' hr' hon'
  have hafter : MfaOn id (handle w q s).2.db := ⟨r', hr', hon'⟩
  cases hr : s.db.identity id with
  | none => exact absurd hafter (mfaOn_of_none hr)
  | some r =>
    cases hon : r.mfaEnabled with
    | true =>
      obtain ⟨newer, m, older, rfl, hoff, hstays, hm⟩ := hproved r hr hon
      refine ⟨_ :: newer, m, older, rfl, hoff, ?_, ?_⟩
      · exact List.forall_mem_cons.mpr ⟨⟨r, hr, hon⟩, hstays⟩
      · rwa [secret_of_staysOn hr hr' hon']
    | false =>
      -- This very exchange switches it on.
      obtain ⟨⟨hashes, rfl⟩, hrow⟩ := switchedOn_cases hr hon hafter
      obtain ⟨identityId, code, i, step, hcall, hs, hid, -, hconfirmed⟩ := hw
      refine ⟨[], _, log, rfl, ?_, by simp, hashes, identityId, code, i, step, rfl, hcall, hs, hid,
        hconfirmed, ?_⟩
      · rw [mfaOn_of_row hr, hon]
        decide
      · rw [hrow] at hr'
        cases hr'
        exact hits i r hr hon hafter hs

/-- **The secret in force is a proved one in every state** of exactly the runs whose confirmations
enable the secret they have read. -/
theorem run_provedSecretInForce_iff (w : World) (s : State) (id : Uuid) (hstart : ¬ MfaOn id s.db)
    (call : ι → ClientCall) (l : List (ι ⊕ Nat)) :
    EachMove (fun older m => ProvedSecretInForce w call id (m.after (handle w)) (m :: older))
      (clientRun w s call l).log ↔
    EachMove (EnablesItsSecret w id) (clientRun w s call l).log := by
  constructor
  · intro hproved newer m older hlog i r hr hoff hon hs
    obtain ⟨⟨hashes, hq⟩, hrow⟩ := switchedOn_cases hr hoff hon
    obtain ⟨newer', m', older', hsplit, -, hstays, -, -, -, i', -, -, -, hs', -, -, hsecret⟩ :=
      hproved newer m older hlog _ hrow rfl
    -- The exchange that switched it on is this one.
    cases newer' with
    | nil =>
      obtain ⟨rfl, rfl⟩ := List.cons.inj hsplit
      have hsame : i = i' := Option.some.inj (hs.symm.trans hs')
      rw [hsame]
      exact hsecret
    | cons x newer' =>
      obtain ⟨rfl, -⟩ := List.cons.inj hsplit
      have hbefore := (mfaOn_of_row hr).mp (hstays m List.mem_cons_self)
      rw [hoff] at hbefore
      cases hbefore
  · intro hits
    have h0 : ProvedSecretInForce w call id s [] := fun r hr hon => absurd ⟨r, hr, hon⟩ hstart
    exact (clientRun_when (J := ProvedSecretInForce w call id) h0
      (fun s log j q hproved hw hm => hproved.move hw hm) (fun _ _ _ hproved => hproved) l hits).2

/-! ### Two calls on one identity -/

/-- An identity whose enrollment has been started. -/
def enrolling : State :=
  .ofDb { Db.empty with
    identities := .single { IdentityRow.ofHandles ⟨0, id, fun _ => 7⟩ (some "ann@acme.example") none
      none none none none with mfaSecret := some "!A" } } 0

/-- A restart of the enrollment, and a confirmation with a code of the pending secret. -/
def restartAndConfirm : Bool → ClientCall
  | false => .mfa 7 (.enable "ann@acme.example")
  | true => .mfa 7 (.verify "000000")

/-- That identity after a draw: the next secret is another one. -/
def enrollingDrawn : State := { enrolling with draws := 1 }

/-- The restart stores its secret, and then the confirmation reads the identity. -/
def restartThenConfirm : List (Bool ⊕ Nat) :=
  List.replicate 5 (Sum.inl false) ++ List.replicate 5 (Sum.inl true)

theorem restartThenConfirm_secrets :
    ∀ m ∈ (clientRun .offline enrollingDrawn restartAndConfirm restartThenConfirm).log,
      (m.who = true → (∀ i ∈ identityOf m.event, i.mfaSecret = some "!AA") ∧
        ∀ r ∈ m.before.db.identity 7, r.mfaSecret = some "!AA") ∧
      (m.who = false → ((m.after (handle .offline)).db.identity 7).all (!·.mfaEnabled) = true) := by
  decide +kernel

theorem run_provedSecretInForce_iff_restartThenConfirm :
    EachMove (fun older m => ProvedSecretInForce .offline restartAndConfirm 7
        (m.after (handle .offline)) (m :: older))
      (clientRun .offline enrollingDrawn restartAndConfirm restartThenConfirm).log := by
  refine (run_provedSecretInForce_iff .offline enrollingDrawn 7 ?_ restartAndConfirm
    restartThenConfirm).mpr ?_
  · rintro ⟨r, hr, hon⟩
    cases hr
    cases hon
  · rintro newer m older hlog i r hr - hafter hs
    have hmem : ∀ x ∈ m :: older,
        x ∈ (clientRun .offline enrollingDrawn restartAndConfirm restartThenConfirm).log := by
      intro x hx
      rw [hlog]
      exact List.mem_append_right _ hx
    obtain ⟨hconfirm, hrestart⟩ := restartThenConfirm_secrets m (hmem m List.mem_cons_self)
    cases hwho : m.who with
    | false =>
      -- The restart does not switch it on.
      obtain ⟨r', hr', hon⟩ := hafter
      have hoff := hrestart hwho
      rw [hr'] at hoff
      simp [hon] at hoff
    | true =>
      obtain ⟨x, hx, hxwho, hi⟩ := hs.mem
      have hread := (restartThenConfirm_secrets x (hmem x (List.mem_cons_of_mem _ hx))).1
      rw [(hconfirm hwho).2 r hr, (hread (hxwho.trans hwho)).1 i hi]

/-- The restart reads the identity before the confirmation, and writes after it. -/
def restartAroundConfirm : List (Bool ⊕ Nat) :=
  [Sum.inl false] ++ List.replicate 5 (Sum.inl true) ++ List.replicate 3 (Sum.inl false)

/-- The newest exchange is the restart's, on a row that is on before it and off after it. -/
theorem restartAroundConfirm_head :
    ((clientRun .offline enrolling restartAndConfirm restartAroundConfirm).log.head?.map fun m =>
      (m.who, (m.before.db.identity 7).map (·.mfaEnabled),
        ((m.after (handle .offline)).db.identity 7).map (·.mfaEnabled))) =
      some (false, some true, some false) := by
  decide +kernel

/-- **A second factor that goes off without one.** -/
theorem restartAroundConfirm_switches_off :
    ¬ EachMove (SwitchedOffByFactor .offline restartAndConfirm 7)
      (clientRun .offline enrolling restartAndConfirm restartAroundConfirm).log := by
  intro hoff
  have hhead := restartAroundConfirm_head
  cases hlog : (clientRun .offline enrolling restartAndConfirm restartAroundConfirm).log with
  | nil =>
    rw [hlog] at hhead
    cases hhead
  | cons m older =>
    rw [hlog] at hhead
    simp only [List.head?_cons, Option.map_some, Option.some.injEq, Prod.mk.injEq,
      Option.map_eq_some_iff] at hhead
    obtain ⟨hwho, ⟨r, hr, hon⟩, r', hr', hoff'⟩ := hhead
    have hafter : ¬ MfaOn 7 (m.after (handle .offline)).db := by
      rw [mfaOn_of_row hr', hoff']
      decide
    obtain ⟨identityId, code, i, hcall, -⟩ := hoff [] m older hlog ⟨r, hr, hon⟩ hafter
    rw [hwho] at hcall
    cases hcall

/-- The restart runs between the confirmation's check and its last statement. -/
def restartInsideConfirm : List (Bool ⊕ Nat) :=
  List.replicate 4 (Sum.inl true) ++ List.replicate 4 (Sum.inl false) ++ [Sum.inl true]

/-- Every identity that is read has the old secret, and the row has another one at the end. -/
theorem restartInsideConfirm_secrets :
    (∀ m ∈ (clientRun .offline enrolling restartAndConfirm restartInsideConfirm).log,
      ∀ i ∈ identityOf m.event, i.mfaSecret = some "!A") ∧
    ((clientRun .offline enrolling restartAndConfirm restartInsideConfirm).state.db.identity 7).map
      (fun r => (r.mfaEnabled, decide (r.mfaSecret = some "!A"))) = some (true, false) := by
  decide +kernel

/-- **A second factor that is on with a secret that nobody has proved.** -/
theorem restartInsideConfirm_unproved :
    ¬ ProvedSecretInForce .offline restartAndConfirm 7
      (clientRun .offline enrolling restartAndConfirm restartInsideConfirm).state
      (clientRun .offline enrolling restartAndConfirm restartInsideConfirm).log := by
  intro hproved
  obtain ⟨hread, hrow⟩ := restartInsideConfirm_secrets
  obtain ⟨r, hr, hpair⟩ := Option.map_eq_some_iff.mp hrow
  obtain ⟨hon, hother⟩ := Prod.mk.inj hpair
  obtain ⟨newer, m, older, hlog, -, -, -, -, -, i, -, -, -, hs, -, -, hsecret⟩ := hproved r hr hon
  obtain ⟨x, hx, -, hi⟩ := hs.mem
  have hmem : x ∈ (clientRun .offline enrolling restartAndConfirm restartInsideConfirm).log := by
    rw [hlog]
    exact List.mem_append_right _ (List.mem_cons_of_mem _ hx)
  rw [hsecret, hread x hmem i hi] at hother
  exact absurd hother (by decide)

end Authrs
