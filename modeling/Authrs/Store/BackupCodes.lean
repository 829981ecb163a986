import Authrs.Relational.ReadCommitted
import Authrs.Store.Accounts

/-!
# Concurrent consumptions of backup codes

`consume_backup_code` selects an unconsumed code in a sub-select and updates the row with the selected
id. Run alone, it consumes a code once. Run concurrently, another consumption can select the code
before the first one commits; it then waits for the row, finds that it still has the selected id, and
is accepted for the same code.

## Main definitions

* `ConsumeCall`, `ConsumeCall.update`: a call, and its statement
* `ConsumeCall.play`: a step of one of the calls

## Main results

* `consumption_alone`: the steps of a call that nothing interrupts are the statement
* `codes_consumed_once`: each code is accepted at most once when calls select apart
* `bothSelect_accepted_twice`: two calls that both select a code are accepted for it
-/

namespace Authrs

open Interaction Relational

/-- A call of `consume_backup_code`, and the time its transaction starts. -/
structure ConsumeCall where
  identityId : Uuid
  codeHash : String
  now : Time

/-- A code that the sub-select of a call can select. -/
def ConsumeCall.matching (a : ConsumeCall) (r : BackupCodeRow) : Bool :=
  r.identityId = a.identityId && r.codeHash = a.codeHash && r.consumedAt.isNone

/-- **The statement of a call.** -/
def ConsumeCall.update (a : ConsumeCall) : KeyUpdate BackupCodeRow.id where
  select t := (t.selectOne a.matching).map BackupCodeRow.id
  set := .consumed a.now
  key_set r := r.consumed_id _

variable {ι : Type} [DecidableEq ι]

/-- **The next step of one of the calls.** -/
def ConsumeCall.play (call : ι → ConsumeCall) :
    Updating ι BackupCodeRow.id → ι → Updating ι BackupCodeRow.id :=
  Updating.advance fun i => (call i).update

/-- What the call returns: whether it has updated a row. -/
def ConsumeCall.result (x : Stage Uuid) : Option Bool :=
  match x with
  | .done o => some o.isSome
  | _ => none

/-- The steps of a call that nothing interrupts are the statement. -/
theorem consumption_alone {env : SqlEnv} {db : Db} {call : ι → ConsumeCall} {i : ι}
    {c : Updating ι BackupCodeRow.id} (hnow : (call i).now = env.now)
    (hwaiting : c.stage i = .waiting) (htable : c.table = db.identityBackupCodes)
    (hlocks : c.locks = []) :
    ∃ (n : Nat) (db' : Db),
      IdentityStmt.exec env db (.consumeBackupCode (call i).identityId (call i).codeHash) =
        .ok (n, db') ∧
      (finalState (ConsumeCall.play call) c [i, i, i]).table = db'.identityBackupCodes ∧
      ConsumeCall.result ((finalState (ConsumeCall.play call) c [i, i, i]).stage i) =
        some (decide (n = 1)) := by
  have hselect : ((call i).update.select c.table) =
      (db.unusedBackupCode (call i).identityId (call i).codeHash).map BackupCodeRow.id := by
    rw [htable]
    rfl
  cases hcode : db.unusedBackupCode (call i).identityId (call i).codeHash with
  | none =>
    rw [hcode] at hselect
    obtain ⟨htables, hstage⟩ := Updating.alone_of_none (u := fun i => (call i).update) hwaiting hselect
    refine ⟨0, db, ?_, htables.trans htable, ?_⟩
    · rw [IdentityStmt.exec, hcode]
    · exact congrArg ConsumeCall.result hstage
  | some code =>
    rw [hcode] at hselect
    have hrow : ∃ r ∈ c.table, r.id = code.id :=
      ⟨code, htable ▸ Table.selectOne_mem hcode, rfl⟩
    obtain ⟨htables, hstage⟩ := Updating.alone_of_some (u := fun i => (call i).update) hwaiting hselect
      (by simp [hlocks]) hrow
    refine ⟨1, { db with identityBackupCodes := (call i).update.apply c.table code.id }, ?_, htables,
      congrArg ConsumeCall.result hstage⟩
    rw [IdentityStmt.exec, hcode, ← hnow, htable]
    rfl

omit [DecidableEq ι] in
/-- The sub-select selects codes that are not consumed, and a code that has been accepted is. -/
theorem consumption_claims (call : ι → ConsumeCall) :
    Claims (fun i => (call i).update) fun r => r.consumedAt = none := by
  constructor
  · intro i t k hselect
    obtain ⟨r, hr, rfl⟩ := Option.map_eq_some_iff.mp hselect
    have hmatching := Table.selectOne_pos hr
    rw [ConsumeCall.matching, Bool.and_eq_true, Option.isNone_iff_eq_none] at hmatching
    exact ⟨r, Table.selectOne_mem hr, rfl, hmatching.2⟩
  · rintro i r ⟨⟩

/-- **Each code is accepted at most once** when a call selects a code only while no other one that has
selected it is still running; and it is accepted more than once otherwise, when the calls are done. -/
theorem codes_consumed_once (t : Table BackupCodeRow.id) (call : ι → ConsumeCall) (l : List ι) :
    (EachCall (ConsumeCall.play call) (SelectsApart fun i => (call i).update) (.start t) l →
      OncePerRow (finalState (ConsumeCall.play call) (.start t) l)) ∧
    (AllDone (finalState (ConsumeCall.play call) (.start t) l) →
      OncePerRow (finalState (ConsumeCall.play call) (.start t) l) →
        EachCall (ConsumeCall.play call) (SelectsApart fun i => (call i).update) (.start t) l) :=
  ⟨oncePerRow_of_selectsApart (consumption_claims call) t,
    selectsApart_of_oncePerRow (consumption_claims call)⟩

/-- An unused code. -/
def unusedCode : Table BackupCodeRow.id := .single ⟨1, 7, "#code", none⟩

/-- Two calls with it. -/
def twoConsumptions : Fin 2 → ConsumeCall := fun _ => ⟨7, "#code", 0⟩

theorem codes_consumed_once_inTurn :
    OncePerRow (finalState (ConsumeCall.play twoConsumptions) (.start unusedCode)
      [0, 0, 0, 1, 1, 1]) :=
  (codes_consumed_once unusedCode twoConsumptions [0, 0, 0, 1, 1, 1]).1 (by decide)

/-- **Two calls that both select a code are accepted for it.** -/
theorem bothSelect_accepted_twice :
    ¬ OncePerRow (finalState (ConsumeCall.play twoConsumptions) (.start unusedCode)
      [0, 1, 0, 0, 1, 1]) := by
  intro h
  exact absurd (h 0 1 1 (by decide) (by decide)) (by decide)

end Authrs
