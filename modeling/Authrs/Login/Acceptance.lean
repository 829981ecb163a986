import Authrs.Login.Replay

/-!
# Which TOTP codes a verification accepts

A verification tries the time steps within one step of the present in order, and presents the first
one that generates the code to the replay marker. So a code is accepted when that first step is
later than the last used one. When two steps of the window generate the same code, the first of them
can be used up while the second is not: the code is then refused, although a step that is valid and
unused generates it.

## Main definitions

* `Candidate`: a step of the window generates the code
* `Unused`: a step is later than the last used one
* `AcceptsExactly`: a verification accepts a code exactly when a candidate is unused

## Main results

* `matchingStep_eq_some`: the first candidate is tried
* `exec_markStepUsed`: the replay marker
* `acceptsExactly_iff`: the states in which a verification is exact
* `repeatedCode_refused`: two steps with one code
-/

namespace Authrs

open Interaction Relational

/-- **A candidate**: a step within one step of the present that generates the code. -/
def Candidate (w : World) (secret : List UInt8) (code : String) (now : Nat) (step : Nat) : Prop :=
  now / TOTP_STEP_SECS ≤ step + TOTP_SKEW_STEPS ∧ step ≤ now / TOTP_STEP_SECS + TOTP_SKEW_STEPS ∧
    w.totp secret step = code

/-- The step is later than the last used one. -/
def Unused (r : IdentityRow) (step : Nat) : Prop :=
  ∀ last, r.mfaLastUsedStep = some last → last < step

section Window

variable {w : World} {secret : List UInt8} {code : String} {now step : Nat}

/-- The window in the order in which it is searched. -/
theorem mem_window :
    step ∈ List.range' (now / TOTP_STEP_SECS - TOTP_SKEW_STEPS)
        (now / TOTP_STEP_SECS + TOTP_SKEW_STEPS + 1 -
          (now / TOTP_STEP_SECS - TOTP_SKEW_STEPS)) ↔
      now / TOTP_STEP_SECS ≤ step + TOTP_SKEW_STEPS ∧
        step ≤ now / TOTP_STEP_SECS + TOTP_SKEW_STEPS := by
  rw [List.mem_range'_1]
  omega

/-- **The first candidate is tried.** -/
theorem matchingStep_eq_some :
    matchingStep w secret code now = some step ↔
      Candidate w secret code now step ∧
        ∀ step', Candidate w secret code now step' → step ≤ step' := by
  unfold matchingStep Candidate
  rw [List.find?_range'_eq_some, mem_window]
  simp only [decide_eq_true_eq, Bool.not_eq_true', decide_eq_false_iff_not]
  constructor
  · rintro ⟨hcode, ⟨hlow, hhigh⟩, hfirst⟩
    refine ⟨⟨hlow, hhigh, hcode⟩, ?_⟩
    rintro step' ⟨hlow', hhigh', hcode'⟩
    by_contra hlt
    exact hfirst step' (by omega) (by omega) hcode'
  · rintro ⟨⟨hlow, hhigh, hcode⟩, hfirst⟩
    refine ⟨hcode, ⟨hlow, hhigh⟩, ?_⟩
    intro step' hlow' hlt hcode'
    have hle := hfirst step' ⟨by omega, by omega, hcode'⟩
    omega

theorem matchingStep_eq_none :
    matchingStep w secret code now = none ↔ ∀ step, ¬ Candidate w secret code now step := by
  constructor
  · rintro hnone step ⟨hlow, hhigh, hcode⟩
    have hall := List.find?_eq_none.mp hnone step (mem_window.mpr ⟨hlow, hhigh⟩)
    exact hall (decide_eq_true hcode)
  · intro hno
    refine List.find?_eq_none.mpr fun step hstep hcode => hno step ?_
    obtain ⟨hlow, hhigh⟩ := mem_window.mp hstep
    exact ⟨hlow, hhigh, of_decide_eq_true hcode⟩

end Window

section Verification

variable (w : World) {s : State} {r : IdentityRow}

theorem unused_iff {step : Nat} : Unused r step ↔ r.mfaLastUsedStep.all (· < step) = true := by
  unfold Unused
  rw [Option.all_eq_true]
  simp

/-- **The replay marker** takes a step that is unused, and keeps the row otherwise. -/
theorem exec_markStepUsed (hr : s.db.identity r.id = some r) (step : Nat) :
    ∃ s', (MfaRepo.markStepUsed r.id step).exec (handle w) s =
        (.ok (r.mfaLastUsedStep.all (· < step)), s') ∧
      s'.db.identity r.id =
        some (if r.mfaLastUsedStep.all (· < step) then r.withUsedStep step else r) := by
  have hmem := (Table.selectOne_key.mp hr).1
  have haccepts : IdentityRow.acceptsStep r.id step r = r.mfaLastUsedStep.all (· < step) := by
    simp [IdentityRow.acceptsStep]
  have hrow : ∀ x ∈ s.db.identities, IdentityRow.acceptsStep r.id step x = true → x = r := by
    intro x hx hacc
    simp only [IdentityRow.acceptsStep, Bool.and_eq_true, decide_eq_true_eq] at hacc
    exact Table.eq_of_key_eq hx hmem hacc.1
  have hcount : decide (s.db.identities.affected (IdentityRow.acceptsStep r.id step) = 1) =
      r.mfaLastUsedStep.all (· < step) := by
    rw [← haccepts, Bool.eq_iff_iff, decide_eq_true_eq]
    constructor
    · intro hone
      obtain ⟨x, hx, hacc⟩ := Table.affected_pos.mp (hone ▸ Nat.one_pos)
      rwa [hrow x hx hacc] at hacc
    · intro hacc
      refine Nat.le_antisymm ?_ (Table.affected_pos.mpr ⟨r, hmem, hacc⟩)
      rw [Table.affected_le_one]
      intro x hx x' hx' h h'
      rw [hrow x hx h, hrow x' hx' h']
  refine ⟨(handle w (.sql (.identities (.markStepUsed r.id step))) s).2, ?_, ?_⟩
  · unfold MfaRepo.markStepUsed
    rw [Program.bind_eq, Program.exec_bind, exec_query_ok rfl, ← hcount]
    rfl
  · rw [← haccepts]
    exact Table.selectOne_update (g := fun r => r.withUsedStep_id step) hr

/-- **A verification is exact** when it accepts the code just when a candidate is unused, and then
has used one; when it refuses the code the row of the identity stays. -/
def AcceptsExactly (s : State) (r : IdentityRow) (secret : List UInt8) (code : String) : Prop :=
  ∃ accepted s', (MfaService.verify w r.toIdentity code).exec (handle w) s = (.ok accepted, s') ∧
    (accepted = true ↔
      ∃ step, Candidate w secret (normalizeCode w code) (s.now / 1000000).toNat step ∧
        Unused r step) ∧
    (accepted = true →
      ∃ step, Candidate w secret (normalizeCode w code) (s.now / 1000000).toNat step ∧
        Unused r step ∧ s'.db.identity r.id = some (r.withUsedStep step)) ∧
    (accepted = false → s'.db.identity r.id = some r)

variable {secret : List UInt8} {code : String}

/-- What a verification of a TOTP code does. -/
theorem exec_verify_totp {enc : String} (henabled : r.mfaEnabled = true)
    (hsecret : r.mfaSecret = some enc) (hdecode : MfaService.decodeSecret w enc = .ok secret)
    (hcode : isTotpCode (normalizeCode w code) = true) :
    (MfaService.verify w r.toIdentity code).exec (handle w) s =
      match matchingStep w secret (normalizeCode w code) (s.now / 1000000).toNat with
      | some step => (MfaRepo.markStepUsed r.id step).exec (handle w) s
      | none => (.ok false, s) := by
  unfold MfaService.verify MfaService.verifyTotp MfaService.decryptSecret MfaService.now
  simp only [henabled, if_true, hcode, hsecret, hdecode]
  rw [Program.bind_eq, Program.exec_bind, Service.exec_ofResult]
  simp only [Except.map, Except.mapError]
  rw [Program.bind_eq, Program.exec_bind, Program.bind_eq, Program.exec_bind, exec_utcNow]
  simp only [Program.pure_eq, Program.exec_pure]
  cases matchingStep w secret (normalizeCode w code) (s.now / 1000000).toNat <;> rfl

section Totp

variable {enc : String} (hr : s.db.identity r.id = some r) (henabled : r.mfaEnabled = true)
  (hsecret : r.mfaSecret = some enc) (hdecode : MfaService.decodeSecret w enc = .ok secret)
  (hcode : isTotpCode (normalizeCode w code) = true)

include hr henabled hsecret hdecode hcode

/-- Where a verification is exact, the candidates before an unused one are unused. -/
theorem AcceptsExactly.unused (hexact : AcceptsExactly w s r secret code) {a b : Nat}
    (ha : Candidate w secret (normalizeCode w code) (s.now / 1000000).toNat a)
    (hb : Candidate w secret (normalizeCode w code) (s.now / 1000000).toNat b)
    (hunused : Unused r b) : Unused r a := by
  obtain ⟨accepted, s', hexec, hiff, -, -⟩ := hexact
  rw [exec_verify_totp w (s := s) henabled hsecret hdecode hcode] at hexec
  cases hstep : matchingStep w secret (normalizeCode w code) (s.now / 1000000).toNat with
  | none => exact absurd ha (matchingStep_eq_none.mp hstep a)
  | some step =>
    -- The first candidate is not after `a`, and it has been accepted.
    rw [hstep] at hexec
    obtain ⟨s'', hmark, -⟩ := exec_markStepUsed w hr step
    have haccepted : r.mfaLastUsedStep.all (· < step) = accepted :=
      Except.ok.inj (congrArg Prod.fst (hmark.symm.trans hexec))
    have hfirst := unused_iff.mpr (haccepted.trans (hiff.mpr ⟨b, hb, hunused⟩))
    intro last hlast
    exact (hfirst last hlast).trans_le ((matchingStep_eq_some.mp hstep).2 a ha)

/-- A verification is exact when the candidates before an unused one are unused. -/
theorem acceptsExactly_of
    (hunused : ∀ a b, Candidate w secret (normalizeCode w code) (s.now / 1000000).toNat a →
      Candidate w secret (normalizeCode w code) (s.now / 1000000).toNat b → a < b →
        Unused r b → Unused r a) : AcceptsExactly w s r secret code := by
  have hverify := exec_verify_totp w (s := s) henabled hsecret hdecode hcode
  cases hstep : matchingStep w secret (normalizeCode w code) (s.now / 1000000).toNat with
  | none =>
    have hno := matchingStep_eq_none.mp hstep
    refine ⟨false, s, by rw [hverify, hstep], ?_, ?_, fun _ => hr⟩
    · refine iff_of_false (by decide) ?_
      rintro ⟨step, hcandidate, -⟩
      exact hno step hcandidate
    · intro h
      cases h
  | some step =>
    obtain ⟨hcandidate, hfirst⟩ := matchingStep_eq_some.mp hstep
    obtain ⟨s', hmark, hrow⟩ := exec_markStepUsed w hr step
    rw [hstep] at hverify
    refine ⟨_, s', hverify.trans hmark, ?_, ?_, ?_⟩
    · constructor
      · intro haccepted
        exact ⟨step, hcandidate, unused_iff.mpr haccepted⟩
      · rintro ⟨b, hb, hlast⟩
        apply unused_iff.mp
        rcases Nat.lt_or_eq_of_le (hfirst b hb) with hlt | rfl
        · exact hunused step b hcandidate hb hlt hlast
        · exact hlast
    · intro haccepted
      rw [if_pos haccepted] at hrow
      exact ⟨step, hcandidate, unused_iff.mpr haccepted, hrow⟩
    · intro hused
      rwa [hused] at hrow

/-- **The states in which a verification is exact**: no step that is used up generates the code of a
later unused step of the window. -/
theorem acceptsExactly_iff :
    AcceptsExactly w s r secret code ↔
      ∀ a b, Candidate w secret (normalizeCode w code) (s.now / 1000000).toNat a →
        Candidate w secret (normalizeCode w code) (s.now / 1000000).toNat b → a < b →
          Unused r b → Unused r a := by
  constructor
  · intro hexact a b ha hb _ hunused
    exact hexact.unused w hr henabled hsecret hdecode hcode ha hb hunused
  · exact acceptsExactly_of w hr henabled hsecret hdecode hcode

end Totp

end Verification

/-! ### Two steps with one code -/

/-- A generator that gives every other step the same code. -/
def alternating : World :=
  { World.offline with totp := fun _ step => if step % 2 = 0 then "000000" else "111111" }

/-- The identity has used step 9. -/
def annAtNine : IdentityRow := ann.withUsedStep 9

theorem annAtNine_row (now : Time) :
    (State.ofDb { Db.empty with identities := .single annAtNine } now).db.identity 7 =
      some annAtNine := rfl

theorem annAtNine_secret : annAtNine.mfaSecret = some "!B" := rfl

/-- At step 11 the code of an unused step is accepted. -/
theorem acceptsExactly_iff_atEleven :
    AcceptsExactly alternating (.ofDb { Db.empty with identities := .single annAtNine }
      (seconds 335)) annAtNine [66] "000000" := by
  refine (acceptsExactly_iff alternating (annAtNine_row _) rfl annAtNine_secret rfl
    (by decide +kernel)).mpr ?_
  rintro a b ⟨hlow, -, -⟩ - - - last hlast
  obtain rfl : 9 = last := Option.some.inj hlast
  have hnow : (seconds 335 / 1000000).toNat / TOTP_STEP_SECS = 11 := by decide
  change (seconds 335 / 1000000).toNat / TOTP_STEP_SECS ≤ a + 1 at hlow
  omega

/-- **A code is refused although an unused step generates it**: at step 9 the code of steps 8 and 10
is tried as that of step 8. -/
theorem repeatedCode_refused :
    ¬ AcceptsExactly alternating (.ofDb { Db.empty with identities := .single annAtNine }
      (seconds 275)) annAtNine [66] "000000" := by
  have hcandidate : ∀ step, step = 8 ∨ step = 10 → Candidate alternating [66]
      (normalizeCode alternating "000000") (seconds 275 / 1000000).toNat step := by
    rintro step (rfl | rfl)
    · exact ⟨by decide, by decide, by decide +kernel⟩
    · exact ⟨by decide, by decide, by decide +kernel⟩
  intro hexact
  have hunused : Unused annAtNine 8 :=
    hexact.unused alternating (annAtNine_row _) rfl annAtNine_secret rfl (by decide +kernel)
      (hcandidate 8 (.inl rfl)) (hcandidate 10 (.inr rfl)) (fun last hlast => by cases hlast; decide)
  exact absurd (hunused 9 rfl) (by decide)

end Authrs
