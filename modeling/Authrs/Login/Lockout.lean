import Authrs.Login.Warrants
import Authrs.Store.IdentityRow

/-!
# Lockout under concurrency

Five failed attempts lock an identity. A failing check computes the lock from the counter it has
read, and the statement that follows increments the counter as it is then; where others have
counted in between, the counter can reach the threshold without a lock. The lockout holds in a run
exactly as long as no failed attempt takes an unlocked row to the threshold while its call had
read a counter that calls for no lock.

## Main definitions

* `LockoutHolds id db`: an identity with five failed attempts is locked
* `CountsAsSeen id`: a failed attempt reaches the threshold only if its call had seen it coming

## Main results

* `run_lockoutHolds_iff`: the runs in which the lockout holds throughout
* `guesses_unlocked`: five guesses at once, counted and not locked
-/

namespace Authrs

open Interaction

variable {ι : Type} [DecidableEq ι]

/-- **An identity with `DEFAULT_LOCK_AFTER_ATTEMPTS` failed attempts has a lock.** -/
def LockoutHolds (id : Uuid) (db : Db) : Prop :=
  ∀ r, db.identity id = some r → DEFAULT_LOCK_AFTER_ATTEMPTS ≤ r.failedAttempts →
    r.lockedUntil ≠ none

/-- A failed attempt that takes an unlocked row to the threshold is one of a call that had read a
counter just before the threshold, or beyond. -/
def CountsAsSeen (id : Uuid) (older : List (Move authrs ι State)) (m : Move authrs ι State) :
    Prop :=
  ∀ lockUntil i r,
    m.event.request = .sql (.identities (.incrementFailedAttempts id lockUntil)) →
    Snapshot i (own m.who older) → m.before.db.identity id = some r → r.lockedUntil = none →
    lockDue r.failedAttempts = true → lockDue i.failedAttempts = true

section

variable {w : World} {s : State} {id : Uuid} {r : IdentityRow}

theorem zero_below_threshold : ¬ DEFAULT_LOCK_AFTER_ATTEMPTS ≤ 0 := by decide

theorem Snapshot.unique {i i' : Identity} {h : List (Event authrs)} (hs : Snapshot i h)
    (hs' : Snapshot i' h) : i = i' :=
  Option.some.inj (hs.symm.trans hs')

/-- **One exchange keeps the lockout**, if it counts as its call had seen. -/
theorem LockoutHolds.move {c : ClientCall} {log : List (Move authrs ι State)} {j : ι} {q : Request}
    (hlock : LockoutHolds id s.db) (hw : Warranted w c (own j log) q)
    (hseen : CountsAsSeen id log ⟨j, ⟨q, (handle w q s).1⟩, s⟩) :
    LockoutHolds id (handle w q s).2.db := by
  intro r' hr' hfive
  cases hrow : s.db.identity id with
  | none =>
    rcases handle_identity_none (w := w) q hrow with hnone | ⟨_, _, _, _, _, _, _, hnew⟩
    · rw [hr'] at hnone
      cases hnone
    · rw [hr'] at hnew
      cases hnew
      exact absurd hfive zero_below_threshold
  | some r =>
    obtain ⟨r'', hr'', hchange⟩ := handle_identity (w := w) q hrow
    obtain rfl : r' = r'' := Option.some.inj (hr'.symm.trans hr'')
    have hkeep := hlock r hrow
    cases hchange with
    | failedAttempt lockUntil r hmax =>
      obtain ⟨i, hs, rfl, hdue⟩ := hw
      cases lockUntil with
      | some t => simp [IdentityRow.withFailedAttempt]
      | none =>
        -- The call computed no lock, so the row was locked, or is still before the threshold.
        intro hunlocked
        have hnone : r.lockedUntil = none := hunlocked
        have hrow' : lockDue r.failedAttempts = true := by
          simp only [IdentityRow.withFailedAttempt] at hfive
          simp only [lockDue, Bool.and_eq_true, decide_eq_true_eq]
          exact ⟨hmax, hfive⟩
        rw [hseen none i r rfl hs hrow hnone hrow'] at hdue
        cases hdue
    | clearedAttempts => exact absurd hfive zero_below_threshold
    | _ => exact hkeep hfive

/-- **The lockout holds throughout exactly the runs whose failed attempts count as seen.** -/
theorem run_lockoutHolds_iff (w : World) (s : State) (id : Uuid) (hstart : LockoutHolds id s.db)
    (call : ι → ClientCall) (l : List (ι ⊕ Nat)) :
    EachMove (fun _ m => LockoutHolds id (m.after (handle w)).db) (clientRun w s call l).log ↔
      EachMove (CountsAsSeen id) (clientRun w s call l).log := by
  constructor
  · intro hlock newer m older hlog lockUntil i r hq hs hr hunlocked hrow
    have hafter := hlock newer m older hlog
    have hwarrant := clientRun_warranted hlog
    obtain ⟨j, ⟨q, reply⟩, s'⟩ := m
    cases hq
    obtain ⟨i', hs', -, hdue⟩ := hwarrant
    obtain rfl := hs.unique hs'
    simp only [lockDue, Bool.and_eq_true, decide_eq_true_eq] at hrow
    cases lockUntil with
    | some t => exact hdue.symm
    | none =>
      have hsome := hafter _ (handle_incrementFailedAttempts none hr hrow.1) hrow.2
      exact absurd hunlocked hsome
  · intro hseen
    refine (clientRun_when (J := fun s _ => LockoutHolds id s.db) hstart ?_
      (fun _ _ _ hlock => hlock) l hseen).2
    intro s log j q hlock hw hm
    exact hlock.move hw hm

end

/-! ### Two runs -/

/-- An identity with a password. -/
def annWithPassword : State :=
  .ofDb { Db.empty with
    identities := .single (IdentityRow.ofHandles ⟨0, id, fun _ => 7⟩ (some "ann@acme.example") none
      none none none (some ":correct horse")) } 0

/-- Any number of guesses at the password, all of them wrong. -/
def guess {ι : Type} (_ : ι) : ClientCall := .identityLogin "ann@acme.example" "wrong"

theorem annWithPassword_lockoutHolds : LockoutHolds 7 annWithPassword.db := by
  intro r hr hfive
  cases hr
  exact absurd hfive zero_below_threshold

/-- One guess after the other. -/
def guessesInTurn : List (Fin 5 ⊕ Nat) := [.inl 0, .inl 0, .inl 1, .inl 1]

theorem guessesInTurn_low :
    ∀ m ∈ (clientRun .offline annWithPassword guess guessesInTurn).log,
      ∀ r ∈ m.before.db.identity 7, lockDue r.failedAttempts = false := by
  decide +kernel

theorem run_lockoutHolds_iff_guessesInTurn :
    EachMove (fun _ m => LockoutHolds 7 (m.after (handle .offline)).db)
      (clientRun .offline annWithPassword guess guessesInTurn).log := by
  refine (run_lockoutHolds_iff .offline annWithPassword 7 annWithPassword_lockoutHolds guess
    guessesInTurn).mpr (.of_forall ?_)
  rintro m hm older lockUntil i r - - hr - hdue
  rw [guessesInTurn_low m hm r hr] at hdue
  cases hdue

/-- Five guesses at once: each reads the counter before any other has counted. -/
def guessesAtOnce : List (Fin 5 ⊕ Nat) :=
  [.inl 0, .inl 1, .inl 2, .inl 3, .inl 4, .inl 0, .inl 1, .inl 2, .inl 3, .inl 4]

/-- The counter is at five, and there is no lock. -/
theorem guessesAtOnce_row :
    ((clientRun .offline annWithPassword guess guessesAtOnce).state.db.identity 7).map
      (fun r => (r.failedAttempts, r.lockedUntil)) = some (5, none) := by
  decide +kernel

/-- **Five failed attempts without a lock**, from a state in which the lockout holds. -/
theorem guesses_unlocked :
    LockoutHolds 7 annWithPassword.db ∧
      ¬ LockoutHolds 7 (clientRun .offline annWithPassword guess guessesAtOnce).state.db := by
  refine ⟨annWithPassword_lockoutHolds, fun hlock => ?_⟩
  obtain ⟨r, hr, hpair⟩ := Option.map_eq_some_iff.mp guessesAtOnce_row
  obtain ⟨hfive, hnone⟩ := Prod.mk.inj hpair
  exact hlock r hr (by rw [hfive]; decide) hnone

end Authrs
